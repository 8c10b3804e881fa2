import GoFront.Path

/-!
The canonical spelling of names: it is glued from the elements that count, and splitting it gives
them back, so a canonical name is its own canonical spelling. Two names that lead somewhere have
the same canonical spelling exactly if they have the same elements and start at the same place. A
joined name has the elements of both, and the stem and the extension of a name are told apart by its
last dot.
-/
namespace GoFront.Path

variable {separator : Char} {name part : List Char} {parts : List (List Char)}

theorem split_ne_nil (separator : Char) (name : List Char) : split separator name ≠ [] := by
  cases name with
  | nil => simp [split]
  | cons c rest =>
    unfold split
    split
    · simp
    · split <;> simp

theorem not_mem_of_mem_split (member : part ∈ split separator name) : separator ∉ part := by
  induction name generalizing part with
  | nil => simp_all [split]
  | cons c rest ih =>
    unfold split at member
    split at member
    · rcases List.mem_cons.mp member with rfl | later
      · simp
      · exact ih later
    · rename_i other
      split at member
      · rename_i nothing
        exact (split_ne_nil separator rest nothing).elim
      · rename_i first others parted
        rcases List.mem_cons.mp member with rfl | later
        · have clean := ih (parted ▸ List.mem_cons_self)
          simpa [eq_comm, clean] using other
        · exact ih (parted ▸ List.mem_cons_of_mem _ later)

theorem split_append_cons (front rest : List Char) :
    split separator (front ++ separator :: rest) =
      split separator front ++ split separator rest := by
  induction front with
  | nil => simp [split]
  | cons c more ih =>
    rw [List.cons_append, split, split, ih]
    split
    next => rfl
    next =>
      cases parted : split separator more with
      | nil => exact absurd parted (split_ne_nil separator more)
      | cons first others => rfl

theorem split_of_not_mem (clean : separator ∉ part) : split separator part = [part] := by
  induction part with
  | nil => simp [split]
  | cons c more ih =>
    obtain ⟨other, clean⟩ : separator ≠ c ∧ separator ∉ more := by simpa using clean
    rw [split, if_neg (Ne.symm other), ih clean]

/-- Splitting undoes gluing. -/
theorem split_glue (some : parts ≠ []) (clean : ∀ part ∈ parts, separator ∉ part) :
    split separator (glue separator parts) = parts := by
  induction parts with
  | nil => exact (some rfl).elim
  | cons first rest ih =>
    obtain ⟨here, others⟩ := List.forall_mem_cons.mp clean
    cases rest with
    | nil => exact split_of_not_mem here
    | cons second rest =>
      have glued : glue separator (first :: second :: rest) =
          first ++ separator :: glue separator (second :: rest) := rfl
      rw [glued, split_append_cons, split_of_not_mem here, ih (by simp) others, List.singleton_append]

/-- The parts that count as elements of a name. -/
def IsElement (part : List Char) : Prop := '/' ∉ part ∧ part ≠ [] ∧ part ≠ ['.']

theorem isElement_of_mem (member : part ∈ elements name) : IsElement part := by
  obtain ⟨parted, counts⟩ := List.mem_filter.mp member
  exact ⟨not_mem_of_mem_split parted, by simpa using counts⟩

theorem elements_glue (proper : ∀ part ∈ parts, IsElement part) :
    elements (glue '/' parts) = parts := by
  by_cases some : parts = []
  · simp [some, glue, elements, split]
  · rw [elements, split_glue some fun part member => (proper part member).1,
      List.filter_eq_self]
    intro part member
    simpa using (proper part member).2

theorem elements_rooted (name : List Char) : elements ('/' :: name) = elements name := by
  simp [elements, split]

theorem not_isRooted_glue (proper : ∀ part ∈ parts, IsElement part) (some : parts ≠ []) :
    isRooted (glue '/' parts) = false := by
  match parts, some with
  | (c :: part) :: rest, _ =>
    have first : c ≠ '/' := by
      have clean := (proper _ List.mem_cons_self).1
      rintro rfl
      simp at clean
    cases rest <;> simp [glue, isRooted, first]
  | [] :: _, _ => exact ((proper [] List.mem_cons_self).2.1 rfl).elim

/-- The spelling of a name that leads away is glued from its elements, below the root if it starts
there. -/
theorem normalizeChars_eq {name : List Char} (leads : isRooted name = true ∨ elements name ≠ []) :
    normalizeChars name = (if isRooted name then ['/'] else []) ++ glue '/' (elements name) := by
  unfold normalizeChars
  dsimp only
  split
  next => rfl
  next unrooted =>
    rw [if_neg (leads.resolve_left unrooted), List.nil_append]

theorem normalizeChars_of_not_leads {name : List Char}
    (stays : ¬(isRooted name = true ∨ elements name ≠ [])) : normalizeChars name = name := by
  obtain ⟨unrooted, none⟩ := not_or.mp stays
  have empty : elements name = [] := Decidable.not_not.mp none
  simp [normalizeChars, unrooted, empty]

@[simp] theorem isRooted_normalizeChars (name : List Char) :
    isRooted (normalizeChars name) = isRooted name := by
  by_cases leads : isRooted name = true ∨ elements name ≠ []
  · rw [normalizeChars_eq leads]
    split
    next rooted => rw [rooted]; rfl
    next unrooted =>
      have some := leads.resolve_left unrooted
      rw [List.nil_append, not_isRooted_glue (fun _ => isElement_of_mem) some]
      simpa using unrooted
  · rw [normalizeChars_of_not_leads leads]

@[simp] theorem elements_normalizeChars (name : List Char) :
    elements (normalizeChars name) = elements name := by
  by_cases leads : isRooted name = true ∨ elements name ≠ []
  · rw [normalizeChars_eq leads]
    split
    next =>
      rw [List.singleton_append, elements_rooted, elements_glue fun _ => isElement_of_mem]
    next => rw [List.nil_append, elements_glue fun _ => isElement_of_mem]
  · rw [normalizeChars_of_not_leads leads]

/-- The spelling of a name that leads away depends on its root and its elements alone. -/
theorem normalizeChars_eq_iff {name other : List Char}
    (leads : isRooted name = true ∨ elements name ≠ []) :
    normalizeChars name = normalizeChars other ↔
      isRooted name = isRooted other ∧ elements name = elements other := by
  constructor
  · intro same
    have roots := congrArg isRooted same
    have parts := congrArg elements same
    exact ⟨by simpa using roots, by simpa using parts⟩
  · rintro ⟨roots, parts⟩
    rw [normalizeChars_eq leads, normalizeChars_eq (roots ▸ parts ▸ leads), roots, parts]

theorem normalizeChars_normalizeChars (name : List Char) :
    normalizeChars (normalizeChars name) = normalizeChars name := by
  by_cases leads : isRooted name = true ∨ elements name ≠ []
  · refine (normalizeChars_eq_iff ?_).mpr
      ⟨isRooted_normalizeChars name, elements_normalizeChars name⟩
    rwa [isRooted_normalizeChars, elements_normalizeChars]
  · rw [normalizeChars_of_not_leads leads, normalizeChars_of_not_leads leads]

@[simp] theorem normalize_normalize (name : String) :
    normalize (normalize name) = normalize name := by
  simp [normalize, normalizeChars_normalizeChars]

/-! ### What a canonical spelling tells -/

theorem split_eq_splitOn (separator : Char) (name : List Char) :
    split separator name = name.splitOn separator := by
  induction name with
  | nil => rfl
  | cons c rest ih =>
    rw [List.splitOn, List.splitOnP_cons_eq_if_modifyHead, ← List.splitOn, ← ih, split]
    simp only [beq_iff_eq]
    split
    next => rfl
    next =>
      cases parted : split separator rest with
      | nil => exact absurd parted (split_ne_nil separator rest)
      | cons first others => rfl

/-- The parts of a name between its slashes, but for the empty ones and the dots. -/
def properParts (name : String) : List (List Char) :=
  (name.toList.splitOn '/').filter fun part => part ≠ [] ∧ part ≠ ['.']

theorem elements_eq_properParts (name : String) : elements name.toList = properParts name := by
  rw [elements, split_eq_splitOn, properParts]

/-- The name starts at the root or has a part that counts. All others mean the directory itself. -/
def LeadsAway (name : String) : Prop := isRooted name.toList = true ∨ properParts name ≠ []

/-- What stands behind the slash of the root, if the name starts with one. -/
def belowRoot (name : String) : List Char :=
  if isRooted name.toList then name.toList.tail else name.toList

/-- No part of the name below the root could be left out, and there is no slash at its end. -/
structure Canonical (name : String) : Prop where
  proper : ∀ part ∈ (belowRoot name).splitOn '/', part ≠ [] ∧ part ≠ ['.']
  ending : name.toList.getLast? ≠ some '/'

/-- The last element stands at the end. -/
theorem exists_glue_concat (parts : List (List Char)) (last : List Char) :
    ∃ front, glue '/' (parts ++ [last]) = front ++ last := by
  induction parts with
  | nil => exact ⟨[], rfl⟩
  | cons first rest ih =>
    obtain ⟨front, glued⟩ := ih
    have unfolded : glue '/' (first :: rest ++ [last]) =
        first ++ '/' :: glue '/' (rest ++ [last]) := by
      cases rest <;> rfl
    exact ⟨first ++ '/' :: front, by rw [unfolded, glued, List.append_assoc, List.cons_append]⟩

theorem getLast?_glue (proper : ∀ part ∈ parts, IsElement part) (some : parts ≠ []) :
    ∃ c, (glue '/' parts).getLast? = Option.some c ∧ c ≠ '/' := by
  rcases List.eq_nil_or_concat parts with rfl | ⟨front, last, rfl⟩
  · exact absurd rfl some
  · obtain ⟨before, glued⟩ := exists_glue_concat front last
    obtain ⟨clean, nonempty, _⟩ := proper last (by simp)
    refine ⟨last.getLast nonempty, ?_, ?_⟩
    · rw [List.concat_eq_append, glued, List.getLast?_append, List.getLast?_eq_some_getLast nonempty]
      rfl
    · exact fun slash => clean (slash ▸ List.getLast_mem nonempty)

/-- The canonical spelling of a name that leads away is that of the root, or nothing in it could
be left out. -/
theorem canonical_normalize {name : String} (leads : LeadsAway name) :
    normalize name = "/" ∨ Canonical (normalize name) := by
  rw [LeadsAway, ← elements_eq_properParts] at leads
  have proper : ∀ part ∈ elements name.toList, IsElement part := fun _ => isElement_of_mem
  have spelled : (normalize name).toList = _ :=
    String.toList_ofList.trans (normalizeChars_eq leads)
  by_cases none : elements name.toList = []
  · have rooted : isRooted name.toList = true := leads.resolve_right (absurd none)
    left
    rw [← String.toList_inj, spelled, rooted, none]
    rfl
  · have below : belowRoot (normalize name) = glue '/' (elements name.toList) := by
      have roots : isRooted (normalize name).toList = isRooted name.toList := by
        simp [normalize]
      rw [belowRoot, roots, spelled]
      split <;> rfl
    obtain ⟨c, last, other⟩ := getLast?_glue proper none
    refine .inr ⟨fun part member => ?_, ?_⟩
    · rw [below, ← split_eq_splitOn, split_glue none fun part member => (proper part member).1]
        at member
      exact (proper part member).2
    · rw [spelled, List.getLast?_append, last]
      simpa using other

/-- What the spelling of names promises. -/
structure Spelled (name : String) : Prop where
  /-- A spelling stays as it is when it is spelled again. -/
  stable : normalize (normalize name) = normalize name
  /-- Two names are one file exactly if they start at the same place and have the same parts. -/
  identifies : LeadsAway name → ∀ other, LeadsAway other →
    (normalize name = normalize other ↔
      isRooted name.toList = isRooted other.toList ∧ properParts name = properParts other)
  /-- Nothing could be left out of the spelling. -/
  canonical : LeadsAway name → normalize name = "/" ∨ Canonical (normalize name)

/-- The spelling of a name is the same for all names that have the same parts and start at the same
place, and for no others, unless the name means the directory itself. -/
theorem normalize_spelled (name : String) : Spelled name where
  stable := normalize_normalize name
  identifies leads other _ := by
    rw [LeadsAway, ← elements_eq_properParts] at leads
    rw [normalize, normalize, String.ofList_inj, normalizeChars_eq_iff leads,
      elements_eq_properParts, elements_eq_properParts]
  canonical := canonical_normalize

/-- Dots and repeated slashes do not make another file, but a step up and the root do. -/
theorem normalize_spelled_dots :
    (LeadsAway "./a//b/." ∧ LeadsAway "a/b" ∧ LeadsAway "/a/b" ∧ LeadsAway "a/../b") ∧
      normalize "./a//b/." = normalize "a/b" ∧ normalize "a/b" ≠ normalize "/a/b" ∧
      normalize "a/b" ≠ normalize "a/../b" ∧ normalize "./." = "./." := by
  have dots : LeadsAway "./a//b/." := .inr (by decide +kernel)
  have plain : LeadsAway "a/b" := .inr (by decide +kernel)
  have rooted : LeadsAway "/a/b" := .inr (by decide +kernel)
  have up : LeadsAway "a/../b" := .inr (by decide +kernel)
  refine ⟨⟨dots, plain, rooted, up⟩, ?_, fun same => ?_, fun same => ?_, by decide +kernel⟩
  · exact ((normalize_spelled _).identifies dots _ plain).mpr (by decide +kernel)
  · have alike := ((normalize_spelled _).identifies plain _ rooted).mp same
    exact absurd alike (by decide +kernel)
  · have alike := ((normalize_spelled _).identifies plain _ up).mp same
    exact absurd alike (by decide +kernel)

/-! ### Names inside a directory -/

/-- What can be the name of something in a directory. -/
def IsName (name : String) : Prop := IsElement name.toList ∧ name.toList ≠ ['.', '.']

instance (part : List Char) : Decidable (IsElement part) :=
  inferInstanceAs (Decidable ('/' ∉ part ∧ part ≠ [] ∧ part ≠ ['.']))

instance (name : String) : Decidable (IsName name) :=
  inferInstanceAs (Decidable (IsElement name.toList ∧ name.toList ≠ ['.', '.']))

theorem elements_slash (front rest : List Char) :
    elements (front ++ '/' :: rest) = elements front ++ elements rest := by
  rw [elements, split_append_cons, List.filter_append]
  rfl

theorem elements_of_isElement (proper : IsElement part) : elements part = [part] := by
  simp [elements, split_of_not_mem proper.1, proper.2.1, proper.2.2]

/-- The text of a joined name. The slash may be there already. -/
theorem toList_join {directory : String} (some : directory ≠ "") (child : String) :
    ∃ front, (directory.toList = front ∨ directory.toList = front ++ ['/']) ∧
      (join directory child).toList = front ++ '/' :: child.toList := by
  unfold join
  rw [if_neg some]
  split
  next slash =>
    obtain ⟨front, ends⟩ := List.getLast?_eq_some_iff.mp slash
    exact ⟨front, .inr ends, by simp [ends]⟩
  next => exact ⟨directory.toList, .inl rfl, by simp⟩

@[simp] theorem elements_join (directory child : String) :
    elements (join directory child).toList = elements directory.toList ++ elements child.toList := by
  by_cases some : directory = ""
  · simp [some, join, elements, split]
  · obtain ⟨front, ends, joined⟩ := toList_join some child
    rw [joined, elements_slash]
    rcases ends with ends | ends
    · rw [ends]
    · rw [ends, elements_slash]
      simp [elements, split]

theorem isRooted_cons (c : Char) (rest : List Char) : isRooted (c :: rest) = (c == '/') := by
  unfold isRooted
  split <;> simp_all

theorem IsElement.not_isRooted (proper : IsElement part) : isRooted part = false := by
  cases part with
  | nil => rfl
  | cons c rest =>
    have other : c ≠ '/' := fun same => proper.1 (same ▸ List.mem_cons_self)
    simpa [isRooted_cons] using other

theorem isRooted_join (directory : String) {child : String}
    (unrooted : isRooted child.toList = false) :
    isRooted (join directory child).toList = isRooted directory.toList := by
  by_cases some : directory = ""
  · rw [some, join, if_pos rfl, unrooted]
    rfl
  · obtain ⟨front, ends, joined⟩ := toList_join some child
    have nonempty : directory.toList ≠ [] := by simpa using some
    rw [joined]
    rcases ends with ends | ends <;> rw [ends] at nonempty ⊢
    · cases front with
      | nil => exact absurd rfl nonempty
      | cons c rest => rw [List.cons_append, isRooted_cons, isRooted_cons]
    · cases front with
      | nil => rfl
      | cons c rest => rw [List.cons_append, List.cons_append, isRooted_cons, isRooted_cons]

/-! ### Stem and extension -/

theorem stemAndExtension_of_dot {stem extension : List Char} (last : '.' ∉ extension) :
    stemAndExtension (stem ++ '.' :: extension) =
      if stem ++ '.' :: extension = ['.', '.'] ∨ stem = [] then (stem ++ '.' :: extension, none)
      else (stem, some extension) := by
  have behind : ((stem ++ '.' :: extension).reverse.takeWhile (· ≠ '.')).reverse = extension := by
    have reversed : (stem ++ '.' :: extension).reverse =
        extension.reverse ++ '.' :: stem.reverse := by simp
    rw [reversed, List.takeWhile_append_of_pos fun c member => ?_]
    · simp
    · have member := List.mem_reverse.mp member
      exact decide_eq_true fun same => last (same ▸ member)
  have before : (stem ++ '.' :: extension).take
      ((stem ++ '.' :: extension).length - extension.length - 1) = stem := by
    have length : (stem ++ '.' :: extension).length - extension.length - 1 = stem.length := by
      simp only [List.length_append, List.length_cons]
      omega
    rw [length, List.take_left]
  have shorter : extension.length ≠ (stem ++ '.' :: extension).length := by
    simp only [List.length_append, List.length_cons]
    omega
  simp only [stemAndExtension, behind, before, shorter, decide_false, Bool.or_false,
    Bool.or_eq_true, decide_eq_true_eq]

/-- The stem and the extension of a name stand before and behind its last dot, unless nothing stands
before it. -/
theorem stemAndExtension_eq_iff {stem extension : List Char} (up : name ≠ ['.', '.']) :
    stemAndExtension name = (stem, some extension) ↔
      stem ≠ [] ∧ '.' ∉ extension ∧ name = stem ++ '.' :: extension := by
  constructor
  · intro parted
    by_cases dot : '.' ∈ name.reverse
    · obtain ⟨behind, before, reversed, last⟩ := List.eq_append_cons_of_mem dot
      have last : '.' ∉ behind.reverse := by simpa using last
      have cut : name = before.reverse ++ '.' :: behind.reverse := by
        rw [← List.reverse_reverse name, reversed]
        simp
      rw [cut, stemAndExtension_of_dot last] at parted
      split at parted
      next => simp at parted
      next proper =>
        simp only [Prod.mk.injEq, Option.some.injEq] at parted
        obtain ⟨rfl, rfl⟩ := parted
        exact ⟨fun none => proper (.inr none), last, cut⟩
    · have whole : name.reverse.takeWhile (· ≠ '.') = name.reverse := by
        rw [← List.append_nil name.reverse, List.takeWhile_append_of_pos, List.takeWhile_nil]
        exact fun c member => decide_eq_true fun same => dot (same ▸ member)
      rw [stemAndExtension, whole] at parted
      simp at parted
  · rintro ⟨nonempty, last, rfl⟩
    rw [stemAndExtension_of_dot last, if_neg (not_or.mpr ⟨up, nonempty⟩)]

end GoFront.Path

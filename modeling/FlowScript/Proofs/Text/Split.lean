import FlowScript.Proofs.Text.Lines

/-!
# Splitting at a separator

A text is split at every occurrence of a separator, from the left, and occurrences that overlap one
already taken do not count. Parts that are joined are read back exactly if no occurrence of the
separator begins in one of them.
-/
namespace FlowScript.Text

/-- Splits behind so many code points, which are what is left of a separator. -/
def splitFrom (separator : Text) : (skip : Nat) → Text → List Text
  | _, [] => [[]]
  | skip + 1, _ :: t => splitFrom separator skip t
  | 0, c :: t =>
    if separator.isPrefixOf (c :: t) then [] :: splitFrom separator (separator.length - 1) t
    else (splitFrom separator 0 t).modifyHead (c :: ·)

/-- The parts of a text between separators; the text itself, if it has none. -/
def split (separator t : Text) : List Text := splitFrom separator 0 t

/-- No separator begins in a part, also not one that ends in the separator behind the part. -/
def Separated (separator : Text) : List Text → Prop
  | [] => False
  | [last] => ¬ separator <:+: last
  | part :: next :: parts =>
    ¬ separator <:+: part ++ separator.dropLast ∧ Separated separator (next :: parts)

section Separators
variable {separator : Text}

theorem Separated.ne_nil {parts : List Text} (h : Separated separator parts) : parts ≠ [] := by
  rintro rfl
  exact h

theorem prefix_append_dropLast (part separator rest : Text) :
    part ++ separator.dropLast <+: part ++ separator ++ rest := by
  rw [List.append_assoc, List.prefix_append_right_inj]
  exact (List.dropLast_prefix separator).trans (List.prefix_append separator rest)

/-- A text in which no separator begins does not start with the separator, whatever follows the one
behind it. -/
theorem not_prefix_of_not_infix {part rest : Text} {c : CodePoint}
    (h : ¬ separator <:+: (c :: part) ++ separator.dropLast) :
    ¬ separator <+: (c :: part) ++ separator ++ rest := by
  intro hstart
  refine h (List.prefix_of_prefix_length_le hstart (prefix_append_dropLast _ _ _) ?_).isInfix
  rw [List.length_append, List.length_cons, List.length_dropLast]
  omega

theorem splitFrom_append (done rest : Text) :
    splitFrom separator done.length (done ++ rest) = splitFrom separator 0 rest := by
  induction done with
  | nil => rfl
  | cons c done ih => exact ih

/-- A part in which no separator begins is split off. -/
theorem split_append (hne : separator ≠ []) {part : Text}
    (h : ¬ separator <:+: part ++ separator.dropLast) (rest : Text) :
    split separator (part ++ separator ++ rest) = part :: split separator rest := by
  induction part with
  | nil =>
    obtain ⟨c, tail, rfl⟩ := List.exists_cons_of_ne_nil hne
    have hstart : List.isPrefixOf (c :: tail) (c :: (tail ++ rest)) = true :=
      List.isPrefixOf_iff_prefix.mpr (List.prefix_append (c :: tail) rest)
    rw [List.nil_append, List.cons_append, split, splitFrom, if_pos hstart]
    exact congrArg _ (splitFrom_append tail rest)
  | cons c part ih =>
    have hstart : ¬ separator.isPrefixOf (c :: (part ++ separator ++ rest)) = true := fun hp =>
      not_prefix_of_not_infix h (List.isPrefixOf_iff_prefix.mp hp)
    have hpart : ¬ separator <:+: part ++ separator.dropLast := fun hinfix =>
      h (List.infix_cons hinfix)
    rw [split] at ih
    rw [split, List.cons_append, List.cons_append, splitFrom, if_neg hstart, ih hpart]
    rfl

theorem split_of_not_infix {t : Text} (h : ¬ separator <:+: t) : split separator t = [t] := by
  induction t with
  | nil => rfl
  | cons c t ih =>
    have hstart : ¬ separator.isPrefixOf (c :: t) = true := fun hp =>
      h (List.isPrefixOf_iff_prefix.mp hp).isInfix
    rw [split] at ih
    rw [split, splitFrom, if_neg hstart, ih fun hinfix => h (List.infix_cons hinfix)]
    rfl

/-- Separated parts are read back. -/
theorem split_join (hne : separator ≠ []) {parts : List Text} (h : Separated separator parts) :
    split separator (join separator parts) = parts := by
  induction parts with
  | nil => exact h.elim
  | cons part parts ih =>
    cases parts with
    | nil =>
      rw [join, List.intercalate_singleton]
      exact split_of_not_infix h
    | cons next parts =>
      rw [join, List.intercalate_cons_cons, split_append hne h.1]
      exact congrArg _ (ih h.2)

theorem not_infix_dropLast (hne : separator ≠ []) : ¬ separator <:+: separator.dropLast := by
  intro h
  have hlength := h.length_le
  have hpos := List.length_pos_iff.mpr hne
  rw [List.length_dropLast] at hlength
  omega

/-- One more code point in front of the first part, if no separator begins at it. -/
theorem Separated.modifyHead {parts : List Text} {c : CodePoint}
    (h : Separated separator parts) (hc : ¬ separator <+: c :: join separator parts) :
    Separated separator (parts.modifyHead (c :: ·)) ∧
      join separator (parts.modifyHead (c :: ·)) = c :: join separator parts := by
  cases parts with
  | nil => exact h.elim
  | cons part parts =>
    cases parts with
    | nil =>
      rw [join, List.intercalate_singleton] at hc
      refine ⟨fun hinfix => ?_, by simp [join]⟩
      rcases List.infix_cons_iff.mp hinfix with hstart | hinfix
      · exact hc hstart
      · exact h hinfix
    | cons next parts =>
      rw [join, List.intercalate_cons_cons] at hc
      refine ⟨⟨fun hinfix => ?_, h.2⟩, by simp [join, List.intercalate_cons_cons]⟩
      rcases List.infix_cons_iff.mp hinfix with hstart | hinfix
      · exact hc (hstart.trans
          ((List.prefix_cons_inj c).mpr (prefix_append_dropLast part separator _)))
      · exact h.1 hinfix

/-- What a text is split into is separated, and joins to the text. -/
theorem separated_splitFrom (hne : separator ≠ []) (skip : Nat) (t : Text) :
    Separated separator (splitFrom separator skip t) ∧
      join separator (splitFrom separator skip t) = t.drop skip := by
  induction t generalizing skip with
  | nil =>
    refine ⟨fun h => hne (List.eq_nil_of_infix_nil h), ?_⟩
    rw [List.drop_nil]
    exact List.intercalate_singleton
  | cons c t ih =>
    cases skip with
    | succ skip => exact ih skip
    | zero =>
      rw [splitFrom, List.drop_zero]
      split
      · next hstart =>
        obtain ⟨rest, hrest⟩ := List.isPrefixOf_iff_prefix.mp hstart
        obtain ⟨d, tail, rfl⟩ := List.exists_cons_of_ne_nil hne
        obtain ⟨hseparated, hjoin⟩ := ih ((d :: tail).length - 1)
        have ht : t.drop tail.length = rest := by
          rw [← (List.cons.inj hrest).2]
          exact List.drop_left
        obtain ⟨part, parts, hparts⟩ := List.exists_cons_of_ne_nil hseparated.ne_nil
        rw [hparts] at hseparated hjoin ⊢
        refine ⟨⟨by simpa using not_infix_dropLast hne, hseparated⟩, ?_⟩
        rw [join] at hjoin
        rw [join, List.intercalate_cons_cons, hjoin, List.nil_append, ← hrest]
        exact congrArg _ ht
      · next hstart =>
        obtain ⟨hseparated, hjoin⟩ := ih 0
        rw [List.drop_zero] at hjoin
        have hc : ¬ separator <+: c :: join separator (splitFrom separator 0 t) := by
          rw [hjoin]
          exact fun h => hstart (List.isPrefixOf_iff_prefix.mpr h)
        obtain ⟨hparts, hcons⟩ := hseparated.modifyHead hc
        exact ⟨hparts, hcons.trans (congrArg _ hjoin)⟩

/-- A text is split into these parts exactly if they join to it and are separated. -/
theorem split_eq_iff (hne : separator ≠ []) {t : Text} {parts : List Text} :
    split separator t = parts ↔ join separator parts = t ∧ Separated separator parts := by
  constructor
  · rintro rfl
    obtain ⟨hseparated, hjoin⟩ := separated_splitFrom hne 0 t
    exact ⟨hjoin, hseparated⟩
  · rintro ⟨rfl, h⟩
    exact split_join hne h

end Separators

end FlowScript.Text

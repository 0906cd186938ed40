import Mathlib.Data.List.Forall2
import FlowScript.Proofs.Playwright.Choice
import FlowScript.Proofs.Text.Split

/-!
# Chains in Playwright's form

The parts of a selector are joined with a separator that is itself plain text, and conversion leaves
their text as it is. So a selector keeps its parts unless one of them holds the separator, or holds
all of it but the last blank in front of another part. A selector of this kind has no form at all
that would keep them.
-/
namespace FlowScript.Playwright
open SelectorKind

/-- What a recorded part starts with, and what stands there in Playwright's form. -/
def engines : List (Text × Text) :=
  [("text/", "text="), ("xpath/", "xpath="), ("pierce/", "css=")]

/-- A recorded part in Playwright's form: with the engine in place of the marker, or the same. -/
inductive IsConverted : Text → Text → Prop
  | engine {marker engine : Text} (rest : Text) (h : (marker, engine) ∈ engines) :
      IsConverted (marker ++ rest) (engine ++ rest)
  | same {part : Text} (h : ∀ e ∈ engines, ¬ e.1 <+: part) : IsConverted part part

section Conversion
variable {part piece marker engine : Text}

theorem mem_engines_iff :
    (marker, engine) ∈ engines ↔ ∃ k ∈ marked, engine? k = some engine ∧ k.marker = marker := by
  have hengines : engines = marked.filterMap fun k => (engine? k).map fun e => (k.marker, e) := by rfl
  simp only [hengines, List.mem_filterMap, Option.map_eq_some_iff, Prod.mk.injEq]
  constructor
  · rintro ⟨k, hk, e, he, hmarker, rfl⟩
    exact ⟨k, hk, he, hmarker⟩
  · rintro ⟨k, hk, he, hmarker⟩
    exact ⟨k, hk, engine, he, hmarker, rfl⟩

theorem convertPart_marker {k : SelectorKind} (hk : k ∈ marked) (he : engine? k = some engine)
    (rest : Text) : convertPart (k.marker ++ rest) = engine ++ rest := by
  have hkind : ofPart (k.marker ++ rest) = k := (ofPart_eq_iff hk).mpr (List.prefix_append _ _)
  simp only [convertPart, hkind, he, List.drop_left]

theorem convertPart_of_unmarked (h : ∀ e ∈ engines, ¬ e.1 <+: part) :
    convertPart part = part := by
  cases he : engine? (ofPart part) with
  | none => simp only [convertPart, he]
  | some engine =>
    have hk : ofPart part ∈ marked := by
      cases hkind : ofPart part with
      | css => simp [hkind, engine?] at he
      | _ => decide
    exact absurd ((ofPart_eq_iff hk).mp rfl) (h _ (mem_engines_iff.mpr ⟨_, hk, he, rfl⟩))

theorem isConverted_iff : IsConverted part piece ↔ piece = convertPart part := by
  constructor
  · rintro (⟨rest, h⟩ | h)
    · obtain ⟨k, hk, he, rfl⟩ := mem_engines_iff.mp h
      exact (convertPart_marker hk he rest).symm
    · exact (convertPart_of_unmarked h).symm
  · rintro rfl
    by_cases h : ∃ e ∈ engines, e.1 <+: part
    · obtain ⟨⟨marker, engine⟩, hmem, rest, rfl⟩ := h
      obtain ⟨k, hk, he, rfl⟩ := mem_engines_iff.mp hmem
      rw [convertPart_marker hk he]
      exact .engine rest hmem
    · have hnone : ∀ e ∈ engines, ¬ e.1 <+: part := fun e he hstart => h ⟨e, he, hstart⟩
      rw [convertPart_of_unmarked hnone]
      exact .same hnone

theorem forall₂_isConverted_iff {parts pieces : List Text} :
    List.Forall₂ IsConverted parts pieces ↔ pieces = parts.map convertPart := by
  constructor
  · intro h
    induction h with
    | nil => rfl
    | cons hpart _ ih => rw [isConverted_iff.mp hpart, ih, List.map_cons]
  · rintro rfl
    rw [List.forall₂_map_right_iff, List.forall₂_same]
    exact fun part _ => isConverted_iff.mpr rfl

/-- Markers and engines hold no blank, so conversion neither makes a separator nor breaks one. -/
theorem IsConverted.infix_iff (h : IsConverted part piece) (behind : Text) :
    separator <:+: piece ++ behind ↔ separator <:+: part ++ behind := by
  cases h with
  | same => rfl
  | @engine marker engine rest h =>
    have hblank : ∀ e ∈ engines, CodePoint.space ∉ e.1 ∧ CodePoint.space ∉ e.2 := by decide
    have hfree {e : Text} (he : CodePoint.space ∉ e) :
        separator <:+: e ++ rest ++ behind ↔ separator <:+: rest ++ behind := by
      rw [List.append_assoc]
      exact ⟨Quoted.infix_of_infix_append he, fun h => h.trans (List.suffix_append _ _).isInfix⟩
    rw [hfree (hblank _ h).1, hfree (hblank _ h).2]

end Conversion

/-- No part holds the separator, nor all of it but the last blank in front of another part. -/
def KeepsApart (parts : List Text) : Prop :=
  (∀ part ∈ parts, ¬ " >> " <:+: part) ∧ ∀ part ∈ parts.dropLast, ¬ " >>" <:+ part

/-- At the seam to a separator, a part makes one only if it ends in the rest of it. -/
theorem infix_append_dropLast_iff (part : Text) :
    separator <:+: part ++ separator.dropLast ↔ separator <:+: part ∨ " >>" <:+ part := by
  let blank : CodePoint := ' '
  let bracket : CodePoint := '>'
  have hend : part ++ separator.dropLast = part ++ [blank] ++ [bracket] ++ [bracket] := by
    rw [List.append_assoc, List.append_assoc]
    rfl
  have hseparator : separator = (" >>" : Text) ++ [blank] := rfl
  have hlast (t : Text) : ¬ separator <:+ t ++ [bracket] := by
    rw [hseparator, List.suffix_concat_iff]
    rintro (h | ⟨t, h, -⟩)
    · exact absurd h (by decide)
    · exact absurd (List.append_inj_right' h rfl) (by decide)
  have hseam : separator <:+ part ++ [blank] ↔ " >>" <:+ part := by
    rw [hseparator, List.suffix_append_self_iff]
  rw [hend, List.infix_concat_iff, List.infix_concat_iff, List.infix_concat_iff, hseam]
  simp only [hlast, false_or, or_comm]

theorem IsConverted.separated_iff {parts pieces : List Text}
    (h : List.Forall₂ IsConverted parts pieces) :
    Text.Separated separator pieces ↔ Text.Separated separator parts := by
  induction h with
  | nil => rfl
  | @cons part piece parts pieces hpart hparts ih =>
    cases hparts with
    | nil => simpa [Text.Separated] using not_congr (hpart.infix_iff [])
    | cons => exact and_congr (not_congr (hpart.infix_iff _)) ih

theorem separated_iff {parts : List Text} (hne : parts ≠ []) :
    Text.Separated separator parts ↔ KeepsApart parts := by
  induction parts with
  | nil => exact absurd rfl hne
  | cons part parts ih =>
    cases parts with
    | nil => simp [Text.Separated, KeepsApart, separator]
    | cons next parts =>
      rw [Text.Separated, ih (List.cons_ne_nil next parts), infix_append_dropLast_iff, not_or,
        KeepsApart, KeepsApart, List.dropLast_cons_cons, List.forall_mem_cons (a := part),
        List.forall_mem_cons (a := part)]
      exact and_and_and_comm

/-- A selector in Playwright's form splits into its parts in order, each of them converted, exactly
if its parts keep apart. No other text would do so, and so none at all if they do not. -/
theorem convert_parts (s : Selector) :
    (List.Forall₂ IsConverted s.parts (Text.split " >> " (convert s)) ↔ KeepsApart s.parts) ∧
    ∀ t, List.Forall₂ IsConverted s.parts (Text.split " >> " t) → t = convert s := by
  have hne : separator ≠ [] := by decide
  have hparts : s.parts ≠ [] := by cases s <;> exact List.cons_ne_nil _ _
  have hsplit (t : Text) : List.Forall₂ IsConverted s.parts (Text.split " >> " t) ↔
      convert s = t ∧ KeepsApart s.parts := by
    have hpieces : List.Forall₂ IsConverted s.parts (s.parts.map convertPart) :=
      forall₂_isConverted_iff.mpr rfl
    rw [forall₂_isConverted_iff, ← separated_iff hparts, ← IsConverted.separated_iff hpieces]
    exact Text.split_eq_iff hne
  refine ⟨?_, fun t h => ((hsplit t).mp h).1.symm⟩
  rw [hsplit, eq_self, true_and]

/-- Brackets at the seams make no separator, and the last part may end as it likes. -/
theorem convert_parts_seams :
    let s : Selector := .chain "pierce/#a >" [">> b", "text/c >>"]
    convert s = "css=#a > >> >> b >> text=c >>" ∧ KeepsApart s.parts ∧
      List.Forall₂ IsConverted s.parts (Text.split " >> " (convert s)) ∧
      Text.split " >> " (convert s) = ["css=#a >", ">> b", "text=c >>"] := by
  intro s
  have hapart : KeepsApart s.parts := by
    unfold KeepsApart
    decide +kernel
  exact ⟨rfl, hapart, (convert_parts s).1.mpr hapart, by cbv⟩

/-- The text of an element may hold the separator, and then one part becomes two. -/
theorem not_kept_separatorInText :
    Text.split " >> " (convert (.chain "#menu" ["text/Home >> Shop"])) =
        ["#menu", "text=Home", "Shop"] ∧
      ¬ ∀ s : Selector, List.Forall₂ IsConverted s.parts (Text.split " >> " (convert s)) := by
  have hsplit : Text.split " >> " (convert (.chain "#menu" ["text/Home >> Shop"])) =
      ["#menu", "text=Home", "Shop"] := by cbv
  refine ⟨hsplit, fun h => ?_⟩
  have hlength := (h (.chain "#menu" ["text/Home >> Shop"])).length_eq
  rw [hsplit] at hlength
  exact absurd hlength (by decide)

end FlowScript.Playwright

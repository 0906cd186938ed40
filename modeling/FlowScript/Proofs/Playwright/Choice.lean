import FlowScript.Playwright.Selector
import FlowScript.Proofs.Literal.Quoted

/-!
# The selector that is chosen

Of the alternatives that do not start at the accessibility tree the first with the preferred
attribute is chosen, else the first. Alternatives that start there might as well be missing. Of the
chosen one every part is put in the form of its engine, but for inner parts that are looked up in
the accessibility tree: they stay as they were recorded.
-/
namespace FlowScript.Playwright

/-- An alternative that does not start at the accessibility tree. -/
def IsUsable (s : Selector) : Prop := ¬ ariaMarker <:+: s.first

/-- A usable alternative whose outermost part has the preferred attribute; an empty attribute, like
an absent one, is no preference. -/
def IsPreferred (preferred : Option Text) (s : Selector) : Prop :=
  preferred.getD [] ≠ [] ∧ IsUsable s ∧ preferred.getD [] <:+: s.first

instance : DecidablePred IsUsable := fun s =>
  decidable_of_iff (¬ ariaMarker.occursIn s.first = true)
    (not_congr (Text.occursIn_iff_infix ariaMarker s.first))

instance (preferred : Option Text) : DecidablePred (IsPreferred preferred) := fun s =>
  decidable_of_iff
    (preferred.getD [] ≠ [] ∧ IsUsable s ∧ Text.occursIn (preferred.getD []) s.first = true)
    (by rw [Text.occursIn_iff_infix, IsPreferred])

/-- The first element of a list with a property. -/
def IsFirst {α : Type} (p : α → Prop) (xs : List α) (x : α) : Prop :=
  ∃ before after, xs = before ++ x :: after ∧ p x ∧ ∀ y ∈ before, ¬ p y

/-- The first preferred alternative, or without any the first usable one. -/
def IsChosen (selectors : List Selector) (preferred : Option Text) (s : Selector) : Prop :=
  IsFirst (IsPreferred preferred) selectors s ∨
    (∀ t ∈ selectors, ¬ IsPreferred preferred t) ∧ IsFirst IsUsable selectors s

section Choice
variable {selectors : List Selector} {preferred : Option Text} {s : Selector} {value : Text}

theorem isFirst_iff {α : Type} {p : α → Prop} [DecidablePred p] {xs : List α} {x : α} :
    IsFirst p xs x ↔ xs.find? (fun y => p y) = some x := by
  rw [List.find?_eq_some_iff_append]
  simp only [IsFirst, decide_eq_true_eq, Bool.not_eq_true', decide_eq_false_iff_not]
  constructor
  · rintro ⟨before, after, hxs, hx, hbefore⟩
    exact ⟨hx, before, after, hxs, hbefore⟩
  · rintro ⟨hx, before, after, hxs, hbefore⟩
    exact ⟨before, after, hxs, hx, hbefore⟩

theorem keeps_ariaMarker (s : Selector) : keeps ariaMarker s = decide (IsUsable s) := by
  rw [Bool.eq_iff_iff, decide_eq_true_iff, keeps, if_pos rfl, Bool.not_eq_true', ← Bool.not_eq_true,
    Text.occursIn_iff_infix, IsUsable]

theorem keeps_of_ne (h : value ≠ ariaMarker) (s : Selector) :
    keeps value s = true ↔ value <:+: s.first := by
  rw [keeps, if_neg h, Text.occursIn_iff_infix]

theorem head?_filterSelectors_ariaMarker (selectors : List Selector) :
    (filterSelectors selectors ariaMarker).head? = selectors.find? (fun s => IsUsable s) := by
  rw [filterSelectors, List.head?_filter, funext keeps_ariaMarker]

/-- Filtering for a value other than the marker leaves the preferred alternatives. -/
theorem head?_filterSelectors (hne : value ≠ ariaMarker) (hvalue : value ≠ [])
    (selectors : List Selector) :
    (filterSelectors (filterSelectors selectors ariaMarker) value).head? =
      selectors.find? (fun s => IsPreferred (some value) s) := by
  rw [filterSelectors, List.head?_filter, filterSelectors, List.find?_filter]
  simp only [keeps_ariaMarker, keeps_of_ne hne, decide_eq_true_eq, IsPreferred, Option.getD_some,
    ne_eq, hvalue, not_false_eq_true, true_and]

theorem not_isPreferred_of_empty (h : preferred.getD [] = []) (s : Selector) :
    ¬ IsPreferred preferred s := fun hs => hs.1 h

/-- What is usable has no marker, so none of it is preferred for the marker. -/
theorem not_isPreferred_ariaMarker (s : Selector) : ¬ IsPreferred (some ariaMarker) s :=
  fun hs => hs.2.1 hs.2.2

theorem find?_isPreferred_eq_none (h : ∀ s, ¬ IsPreferred preferred s) :
    selectors.find? (fun s => IsPreferred preferred s) = none := by
  simp [List.find?_eq_none, h]

/-- The choice is the first preferred alternative, or without any the first usable one. -/
theorem choose_eq (selectors : List Selector) (preferred : Option Text) :
    choose selectors preferred = (selectors.find? fun s => IsPreferred preferred s).or
      (selectors.find? fun s => IsUsable s) := by
  cases preferred with
  | none =>
    rw [find?_isPreferred_eq_none (not_isPreferred_of_empty rfl), Option.none_or]
    exact head?_filterSelectors_ariaMarker selectors
  | some value =>
    cases value with
    | nil =>
      rw [find?_isPreferred_eq_none (not_isPreferred_of_empty rfl), Option.none_or]
      exact head?_filterSelectors_ariaMarker selectors
    | cons c value =>
      have hchoose : choose selectors (some (c :: value)) =
          ((filterSelectors (filterSelectors selectors ariaMarker) (c :: value)).head?).or
            (selectors.find? fun s => IsUsable s) := by
        rw [← head?_filterSelectors_ariaMarker]
        exact Option.orElse_eq_or
      rw [hchoose]
      by_cases hmarker : c :: value = ariaMarker
      · have htwice : filterSelectors (filterSelectors selectors ariaMarker) ariaMarker =
            filterSelectors selectors ariaMarker := by
          simp only [filterSelectors, List.filter_filter, Bool.and_self]
        rw [hmarker, find?_isPreferred_eq_none not_isPreferred_ariaMarker, Option.none_or, htwice,
          head?_filterSelectors_ariaMarker, Option.or_self]
      · rw [head?_filterSelectors hmarker (List.cons_ne_nil c value)]

theorem choose_eq_some_iff :
    choose selectors preferred = some s ↔ IsChosen selectors preferred s := by
  rw [choose_eq, Option.or_eq_some_iff, IsChosen, isFirst_iff, isFirst_iff]
  simp only [List.find?_eq_none, decide_eq_true_eq]

theorem not_isUsable_iff : ¬ IsUsable s ↔ ariaMarker <:+: s.first := Decidable.not_not

theorem choose_eq_none_iff :
    choose selectors preferred = none ↔ ∀ s ∈ selectors, ariaMarker <:+: s.first := by
  rw [choose_eq, Option.or_eq_none_iff]
  simp only [List.find?_eq_none, decide_eq_true_eq, not_isUsable_iff]
  constructor
  · exact fun h => h.2
  · exact fun h => ⟨fun s hs hpreferred => hpreferred.2.1 (h s hs), h⟩

/-- Alternatives that are not usable might as well be missing. -/
theorem choose_append_of_not_isUsable {before others after : List Selector}
    (h : ∀ s ∈ others, ¬ IsUsable s) :
    choose (before ++ others ++ after) preferred = choose (before ++ after) preferred := by
  have husable : others.find? (fun s => IsUsable s) = none := by
    simpa only [List.find?_eq_none, decide_eq_true_eq] using h
  have hpreferred : others.find? (fun s => IsPreferred preferred s) = none := by
    simp only [List.find?_eq_none, decide_eq_true_eq]
    exact fun s hs hpreferred => h s hs hpreferred.2.1
  simp only [choose_eq, List.find?_append, husable, hpreferred, Option.or_none]

/-- No selector is picked if and only if every alternative has the marker in its outermost part, so
also if there is none. Otherwise it is the chosen alternative in Playwright's form. Alternatives
with the marker in their outermost part change nothing, wherever they stand. -/
theorem pickSelector_outcome (preferred : Option Text) :
    (∀ selectors, pickSelector selectors preferred = none ↔
      ∀ s ∈ selectors, ariaMarker <:+: s.first) ∧
    (∀ selectors picked, pickSelector selectors preferred = some picked ↔
      ∃ s, IsChosen selectors preferred s ∧ picked = convert s) ∧
    ∀ before others after : List Selector, (∀ s ∈ others, ariaMarker <:+: s.first) →
      pickSelector (before ++ others ++ after) preferred =
        pickSelector (before ++ after) preferred := by
  refine ⟨fun selectors => ?none, fun selectors picked => ?some, fun before others after h => ?rest⟩
  case none => rw [pickSelector, Option.map_eq_none_iff, choose_eq_none_iff]
  case some =>
    simp only [pickSelector, Option.map_eq_some_iff, choose_eq_some_iff, eq_comm (a := picked)]
  case rest =>
    have hothers : ∀ s ∈ others, ¬ IsUsable s := fun s hs => not_isUsable_iff.mpr (h s hs)
    rw [pickSelector, choose_append_of_not_isUsable hothers, pickSelector]

/-- The marker itself as the preferred attribute prefers nothing; a longer text is preferred where
it stands, but not in an alternative that has the marker as well. -/
theorem pickSelector_outcome_marker :
    let selectors : List Selector := [.plain "aria/[data-t=1]", .chain "#host" ["aria/Go"],
      .plain "text/data-t", .plain "[data-t=2]"]
    let mixed : List Selector := [.chain "aria/Go" ["#a"], .plain "xaria/"]
    (∀ s ∈ mixed, ariaMarker <:+: s.first) ∧
      pickSelector mixed (some "#a") = none ∧
      pickSelector (selectors ++ mixed ++ [.plain "#b"]) (some ariaMarker) =
        pickSelector (selectors ++ [.plain "#b"]) (some ariaMarker) ∧
      pickSelector selectors (some ariaMarker) = some "#host >> aria/Go" ∧
      pickSelector selectors (some "data-t") = some "text=data-t" := by
  intro selectors mixed
  obtain ⟨-, hsome, hrest⟩ := pickSelector_outcome (some ariaMarker)
  have hunusable : ∀ s ∈ mixed, ¬ IsUsable s := by decide
  have hmixed : ∀ s ∈ mixed, ariaMarker <:+: s.first :=
    fun s hs => not_isUsable_iff.mp (hunusable s hs)
  have hunpreferred : ∀ s ∈ selectors, ¬ IsPreferred (some ariaMarker) s := by decide
  have hfirst : IsChosen selectors (some ariaMarker) (.chain "#host" ["aria/Go"]) :=
    .inr ⟨hunpreferred, selectors.take 1, selectors.drop 2, rfl, by decide,
      by decide⟩
  have hpreferred : IsChosen selectors (some "data-t") (.plain "text/data-t") :=
    .inl ⟨selectors.take 2, selectors.drop 3, rfl, by decide, by decide⟩
  exact ⟨hmixed, ((pickSelector_outcome (some "#a")).1 mixed).mpr hmixed,
    hrest selectors mixed _ hmixed, (hsome selectors _).mpr ⟨_, hfirst, by decide⟩,
    ((pickSelector_outcome (some "data-t")).2.1 selectors _).mpr
      ⟨_, hpreferred, by decide⟩⟩

end Choice

section Parts
open SelectorKind
variable {part : Text} {kind : SelectorKind}

/-- The kinds that a marker tells. -/
def marked : List SelectorKind := [.aria, .text, .xpath, .pierce]

/-- What starts two texts that do not start one another cannot be told apart by what follows. -/
theorem not_prefix_append {m e rest : Text} (hm : ¬ m <+: e) (he : ¬ e <+: m) :
    ¬ m <+: e ++ rest := fun h =>
  (List.prefix_or_prefix_of_prefix h (List.prefix_append e rest)).elim hm he

/-- No text starts with two markers. -/
theorem eq_of_marker_prefix {k k' : SelectorKind} (hk : k ∈ marked) (hk' : k' ∈ marked)
    (h : k.marker <+: part) (h' : k'.marker <+: part) : k = k' := by
  have hmarkers : ∀ k ∈ marked, ∀ k' ∈ marked, k.marker <+: k'.marker → k = k' := by
    decide
  rcases List.prefix_or_prefix_of_prefix h h' with h | h
  · exact hmarkers k hk k' hk' h
  · exact (hmarkers k' hk' k hk h).symm

/-- A part is of a kind with a marker exactly if it starts with it. -/
theorem ofPart_eq_iff (hk : kind ∈ marked) : ofPart part = kind ↔ kind.marker <+: part := by
  have hcss : css ∉ marked := by decide
  rw [ofPart]
  cases hfind : [aria, text, xpath, pierce].find? fun k => k.marker.isPrefixOf part with
  | none =>
    rw [List.find?_eq_none] at hfind
    constructor
    · rintro rfl
      exact absurd hk hcss
    · exact fun h => absurd (List.isPrefixOf_iff_prefix.mpr h) (hfind kind hk)
  | some k =>
    have hstarts := List.find?_some hfind
    have hprefix : k.marker <+: part := List.isPrefixOf_iff_prefix.mp hstarts
    have hmem : k ∈ marked := List.mem_of_find?_eq_some hfind
    constructor
    · rintro rfl
      exact hprefix
    · exact fun h => eq_of_marker_prefix hmem hk hprefix h

/-- An engine does not start with a marker, nor a marker with an engine. -/
theorem not_marker_prefix_engine {engine rest : Text} {k : SelectorKind} (hk : k ∈ marked)
    (h : engine? kind = some engine) : ¬ k.marker <+: engine ++ rest := by
  have hengines : ∀ k ∈ marked, ∀ engine ∈ marked.filterMap engine?,
      ¬ k.marker <+: engine ∧ ¬ engine <+: k.marker := by decide
  have hmem : engine ∈ marked.filterMap engine? := by
    cases kind with
    | css => exact nomatch h
    | _ => exact List.mem_filterMap.mpr ⟨_, by decide, h⟩
  obtain ⟨hm, he⟩ := hengines k hk engine hmem
  exact not_prefix_append hm he

theorem convertPart_of_ariaMarker (h : ariaMarker <+: part) : convertPart part = part := by
  have hkind : ofPart part = aria := (ofPart_eq_iff (by decide)).mpr h
  rw [convertPart, hkind]
  rfl

/-- Once converted, a part starts with no marker but that of the accessibility tree, and with this
one only if it did before. -/
theorem of_marker_prefix_convertPart (hk : kind ∈ marked) (h : kind.marker <+: convertPart part) :
    kind = aria ∧ ariaMarker <+: part := by
  rw [convertPart] at h
  cases hengine : engine? (ofPart part) with
  | some engine =>
    rw [hengine] at h
    exact absurd h (not_marker_prefix_engine hk hengine)
  | none =>
    rw [hengine] at h
    have hnone : ∀ k ∈ marked, engine? k = none → k = aria := by decide
    rw [(ofPart_eq_iff hk).mpr h] at hengine
    obtain rfl := hnone kind hk hengine
    exact ⟨rfl, h⟩

theorem IsChosen.isUsable {selectors : List Selector} {preferred : Option Text} {s : Selector}
    (h : IsChosen selectors preferred s) : IsUsable s := by
  rcases h with ⟨-, -, -, hs, -⟩ | ⟨-, -, -, -, hs, -⟩
  · exact hs.2.1
  · exact hs

/-- What is picked is the chosen alternative with every part converted. No converted part starts
with a marker other than that of the accessibility tree, and the outermost part not with this one
either; an inner part starts with it exactly if it was recorded so, and then stays as it was. -/
theorem pickSelector_parts {selectors : List Selector} {preferred : Option Text} {picked : Text}
    (h : pickSelector selectors preferred = some picked) :
    ∃ s, IsChosen selectors preferred s ∧ picked = Text.join " >> " (s.parts.map convertPart) ∧
      (∀ part ∈ s.parts, ∀ k ∈ [SelectorKind.text, .xpath, .pierce],
        ¬ k.marker <+: convertPart part) ∧
      ¬ ariaMarker <+: convertPart s.first ∧
      ∀ part ∈ s.parts, (ariaMarker <+: convertPart part ↔ ariaMarker <+: part) ∧
        (ariaMarker <+: part → convertPart part = part) := by
  obtain ⟨s, hs, rfl⟩ := Option.map_eq_some_iff.mp h
  have hchosen := choose_eq_some_iff.mp hs
  have haria {part : Text} (h : ariaMarker <+: convertPart part) : ariaMarker <+: part :=
    (of_marker_prefix_convertPart (show aria ∈ marked by decide) h).2
  refine ⟨s, hchosen, rfl, fun part _ k hk h => ?others,
    fun h => hchosen.isUsable (haria h).isInfix, fun part _ => ⟨⟨haria, fun h => ?_⟩,
      convertPart_of_ariaMarker⟩⟩
  case others =>
    have hmarked : ∀ k ∈ [text, xpath, pierce], k ∈ marked ∧ k ≠ aria := by decide
    obtain ⟨hmem, hne⟩ := hmarked k hk
    exact hne (of_marker_prefix_convertPart hmem h).1
  · rwa [convertPart_of_ariaMarker h]

/-- An element in shadow trees that is looked up in every way. -/
theorem pickSelector_parts_shadowTree :
    let selectors : List Selector :=
      [.plain "aria/Go", .chain "pierce/#host" ["aria/Go", "text/Go"]]
    pickSelector selectors none = some "css=#host >> aria/Go >> text=Go" ∧
      ∃ s, IsChosen selectors none s ∧
        Text.join " >> " (s.parts.map convertPart) = "css=#host >> aria/Go >> text=Go" ∧
        (∀ part ∈ s.parts, ∀ k ∈ [SelectorKind.text, .xpath, .pierce],
          ¬ k.marker <+: convertPart part) ∧
        ¬ ariaMarker <+: convertPart s.first ∧
        ∀ part ∈ s.parts, ariaMarker <+: part → convertPart part = part := by
  intro selectors
  have hpicked : pickSelector selectors none = some "css=#host >> aria/Go >> text=Go" := by
    decide
  obtain ⟨s, hs, hjoin, hothers, hfirst, haria⟩ := pickSelector_parts hpicked
  exact ⟨hpicked, s, hs, hjoin.symm, hothers, hfirst, fun part hpart => (haria part hpart).2⟩

/-- Only the outermost part decides whether an alternative is passed over, so an inner part that is
looked up in the accessibility tree is named by the script. -/
theorem not_converted_innerAria :
    pickSelector [.chain "#host" ["aria/Name"]] none = some "#host >> aria/Name" ∧
      ¬ ∀ (selectors : List Selector) (preferred : Option Text) (s : Selector), selectors ≠ [] →
        choose selectors preferred = some s → ∀ part ∈ s.parts,
          ∀ k ∈ [SelectorKind.aria, .text, .xpath, .pierce], ¬ k.marker <+: convertPart part := by
  refine ⟨by decide, fun h => ?_⟩
  have hchosen : choose [.chain "#host" ["aria/Name"]] none =
      some (.chain "#host" ["aria/Name"]) := by decide
  have hpart := h _ none _ (List.cons_ne_nil _ _) hchosen "aria/Name" (by decide) .aria (by decide)
  revert hpart
  decide

end Parts

end FlowScript.Playwright

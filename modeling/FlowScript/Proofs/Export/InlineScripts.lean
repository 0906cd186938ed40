import FlowScript.Proofs.Export.Layout
import FlowScript.Proofs.Script.Tags

/-!
# Scripts in pages

A script that stands in a page must not end there early, or start a comment. A recorded text can make
it do so in one way: with a tag that is not in small letters throughout.
-/
namespace FlowScript.Framework

theorem isGuarded (f : Framework) {c : TemplateConfig} (h : c.defaultTimeout.IsAtomic)
    (r : Recording) : ∀ a ∈ (f.template c).recordingActs r, a.IsGuarded := by
  have hbracketed := f.isBracketed h r
  have hbanner : ∀ a ∈ f.banner.acts, a.IsGuarded := by
    cases f <;> simp [banner, Puppeteer.banner, Playwright.banner, Act.IsGuarded, Piece.IsGuarded]
  have hprologue : ∀ a ∈ Template.flowActs (f.template c).beforeAllSteps r, a.IsGuarded := by
    rw [hbracketed.prologue, List.forall_mem_append]
    exact ⟨hbanner, Act.isGuarded_of_scanAll hbracketed.opening⟩
  rw [Template.recordingActs, List.forall_mem_append, List.forall_mem_append,
    List.forall_mem_flatMap]
  exact ⟨⟨hprologue, fun step _ => Act.isGuarded_of_scanAll (hbracketed.steps step [])⟩,
    Act.isGuarded_of_scanAll hbracketed.epilogue⟩

/-- In whatever spelling, a tag occurs in a script exactly if it occurs in one of the texts that the
script writes as literals, and is not in small letters throughout. -/
theorem occursIn_script_iff (f : Framework) (c : TemplateConfig) (r : Recording)
    {unit script : Text} {s' : Session} (hdefault : c.defaultTimeout.IsAtomic)
    (hunit : unit.isBlank = true)
    (h : (f.template c).renderRecording r (.start unit) = .ok script s') {tag w : Text}
    (htag : tag ∈ Text.tags) (hw : w.Spells tag) :
    w.occursIn script = true ↔ w ≠ tag ∧
      ∃ t ∈ ((f.template c).recordingActs r).flatMap Act.recorded, w.occursIn t = true := by
  obtain ⟨name, small, rfl, rfl, hsmall, hname⟩ := Text.exists_name_of_spells htag hw
  simp only [Text.occursIn_iff_infix]
  rw [Template.infix_script_iff (Text.isTagName_of_spells hsmall hname) hunit (f.isTidy c r)
    (f.isGuarded hdefault r) h]
  simp only [Quoted.infix_encode_iff hsmall hname, ne_eq, List.cons.injEq, true_and]
  constructor
  · rintro ⟨t, ht, hne, hin⟩
    exact ⟨hne, t, ht, hin⟩
  · rintro ⟨hne, t, ht, hin⟩
    exact ⟨t, ht, hne, hin⟩

/-- Of two tags in one text, the one in small letters is escaped and the one in capitals is not. -/
theorem occursIn_script_iff_capitals :
    let text : Text := "</script><SCRIPT>"
    let r : Recording := ⟨text, [.change ⟨⟨⟨none, none, none⟩, some [0]⟩, ⟨.chain text [], []⟩⟩ text],
      none, none⟩
    ∀ f : Framework, ∃ script s',
      (f.template {}).renderRecording r (.start "\t") = .ok script s' ∧
      Text.occursIn "</script" script = false ∧ Text.occursIn "<SCRIPT" script = true := by
  intro text r f
  have hunit : Text.IsLine "\t" := by
    unfold Text.IsLine
    decide
  obtain ⟨script, s', hrun⟩ := f.exists_script (c := {}) r trivial (by nofun) hunit rfl
    (by cases f <;> decide +kernel)
  have hiff (tag w : Text) (htag : tag ∈ Text.tags) (hw : w.Spells tag) :=
    f.occursIn_script_iff {} r trivial (by decide) hrun htag hw
  refine ⟨script, s', hrun, ?_, ?_⟩
  · rw [← Bool.not_eq_true, hiff "</script" "</script" (by decide) (by decide)]
    exact fun h => h.1 rfl
  · rw [hiff "<script" "<SCRIPT" (by decide) (by decide)]
    exact ⟨by decide, by cases f <;> decide⟩

/-- A title in capitals ends the script that it is written in. -/
theorem not_safe_capitals :
    let r : Recording := ⟨"</SCRIPT>", [], none, none⟩
    ∃ script s',
      (playwrightTest.template {}).renderRecording r (.start "  ") = .ok script s' ∧
      Text.Spells "</SCRIPT" "</script" ∧ Text.occursIn "</SCRIPT" script = true := by
  intro r
  obtain ⟨script, s', hrun, hoccurs⟩ : ∃ script s',
      (playwrightTest.template {}).renderRecording r (.start "  ") = .ok script s' ∧
      Text.occursIn "</SCRIPT" script = true :=
    Rendering.exists_ok_of_check (p := fun script _ => Text.occursIn "</SCRIPT" script)
      (by decide)
  exact ⟨script, s', hrun, by decide, hoccurs⟩

end FlowScript.Framework

import FlowScript.Proofs.Export.EntryPoints
import FlowScript.Proofs.Playwright.Kind
import FlowScript.Proofs.Puppeteer.Kind

/-!
# Kinds of numbers in scripts

Whether a recording gives an integral number as an integer or as a double does not show in its
scripts: recordings that differ in kinds only are the same recording without kinds, and that has the
script of either.
-/
namespace FlowScript

/-- Renderings that write the same come to the same, wherever they begin. -/
theorem Rendering.WritesSame.answer_eq {α : Type} {x y : Rendering α} (h : WritesSame x y)
    (s : Session) : answer (x s) = answer (y s) := by
  have hagree := h s s rfl
  generalize x s = result at hagree
  generalize y s = result' at hagree
  cases hagree <;> rfl

namespace Framework
open Template Rendering

theorem hidesKinds (f : Framework) (c : TemplateConfig) (r : Recording) :
    (f.template c).HidesKinds r := by
  cases f with
  | puppeteer =>
    refine ⟨Puppeteer.prologue_kindless c r, fun step => ?_, Puppeteer.map_kindless_epilogue.symm⟩
    simp only [template, Puppeteer.template_stepActs]
    exact Puppeteer.stepActs_kindless step
  | playwrightTest =>
    refine ⟨Playwright.prologue_kindless r, fun step => ?_, rfl⟩
    simp only [template, Playwright.template_stepActs]
    exact Playwright.stepActs_kindless c step r

theorem answer_kindless (f : Framework) (c : TemplateConfig) (r : Recording) (s : Session) :
    answer ((f.template c).renderRecording r.kindless s) =
      answer ((f.template c).renderRecording r s) :=
  (f.hidesKinds c r).writesSame.answer_eq s

/-- Recordings that differ only in whether integral numbers are integers or doubles have the same
script, or none for the same reason; so have the recordings read from documents that do. -/
theorem scripts_kindless (f : Framework) (c : TemplateConfig) (s : Session) :
    (∀ r r' : Recording, r.kindless = r'.kindless →
      answer ((f.template c).renderRecording r s) =
        answer ((f.template c).renderRecording r' s)) ∧
    ∀ (v v' : Json) (r r' : Recording), v.kindless = v'.kindless → Recording.ofJson v = .ok r →
      Recording.ofJson v' = .ok r' →
      answer ((f.template c).renderRecording r s) =
        answer ((f.template c).renderRecording r' s) := by
  have hparsed (r r' : Recording) (h : r.kindless = r'.kindless) :
      answer ((f.template c).renderRecording r s) =
        answer ((f.template c).renderRecording r' s) := by
    rw [← f.answer_kindless c r, h, f.answer_kindless c r']
  refine ⟨hparsed, fun v v' r r' hv hr hr' => hparsed r r' ?_⟩
  have hread := Recording.ofJson_kindless hr
  rw [hv, Recording.ofJson_kindless hr'] at hread
  exact (Except.ok.inj hread).symm

/-- The timeout, the frame index, the offset, the count and the properties are zeros and ones, once
as integers and once as the doubles -0.0 and 1.0. -/
theorem scripts_kindless_digits :
    let document (zero one : Number) : Json := .obj [("title", .str "digits"),
      ("timeout", .num one), ("steps", .arr [
        .obj [("type", .str "click"), ("selectors", .arr [.str "a"]), ("frame", .arr [.num one]),
          ("offsetX", .num zero), ("offsetY", .num one), ("duration", .num zero)],
        .obj [("type", .str "waitForElement"), ("selectors", .arr [.str "a"]), ("count", .num one),
          ("properties", .obj [("value", .arr [.num zero, .num one])])]])]
    ∀ f : Framework, ∃ r r' code, Recording.ofJson (document 0 1) = .ok r ∧
      Recording.ofJson (document (.double (.zero true)) (.double .one)) = .ok r' ∧
      answer ((f.template {}).renderRecording r (.start "  ")) = .ok code ∧
      answer ((f.template {}).renderRecording r' (.start "  ")) = .ok code := by
  intro document f
  let doubles : Recording := ⟨"digits", [
    .click ⟨⟨⟨none, none, none⟩, some [1]⟩, ⟨.plain "a", []⟩⟩
      ⟨.double (.zero true), .double .one, some (.double (.zero true)), none, none⟩,
    .waitForElement ⟨⟨⟨none, none, none⟩, none⟩, ⟨.plain "a", []⟩⟩ ⟨none, some (.double .one), none,
      none, .obj [("value", .arr [.num (.double (.zero true)), .num (.double .one)])]⟩],
    some (.double .one), none⟩
  have hdoubles : Recording.ofJson (document (.double (.zero true)) (.double .one)) =
      .ok doubles := rfl
  have hzero : (Number.double (.zero true)).kindless = 0 := by decide +kernel
  have hone : (Number.double .one).kindless = 1 := by decide +kernel
  have hkindless : (document (.double (.zero true)) (.double .one)).kindless = document 0 1 := by
    simp [document, hzero, hone]
  have hintegers := Recording.ofJson_kindless hdoubles
  rw [hkindless] at hintegers
  have hsame : (document 0 1).kindless =
      (document (.double (.zero true)) (.double .one)).kindless := by
    rw [hkindless]
    simp [document]
  have hunit : Text.IsLine "  " := by
    unfold Text.IsLine
    decide
  obtain ⟨code, s, hcode⟩ := f.exists_script (c := {}) doubles trivial (by nofun) hunit rfl
    (by cases f <;> decide +kernel)
  have hanswer : answer ((f.template {}).renderRecording doubles (.start "  ")) = .ok code :=
    answer_eq_ok_iff.mpr ⟨s, hcode⟩
  refine ⟨doubles.kindless, doubles, code, hintegers, hdoubles, ?_, hanswer⟩
  rw [(f.scripts_kindless {} (.start "  ")).2 _ _ _ _ hsame hintegers hdoubles, hanswer]

end Framework

end FlowScript

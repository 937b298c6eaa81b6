import ShieldWard.Edge.LivePolicy

/-!
# The active engine

The live evaluator has no engine, or its engine was built from the bundle that it remembers. It
changes its engine only for a current bundle of another version.
-/

namespace ShieldWard.Edge.LivePolicyEvaluator

variable {P : Platform} {live live' : LivePolicyEvaluator P} {bundle : Bundle}
  {engine : PolicyEngine P}

/-- The evaluator with the engine of a bundle. -/
def running (bundle : Bundle) (engine : PolicyEngine P) : LivePolicyEvaluator P where
  activeVersion := some bundle.version
  activeEvaluator := some engine
  activeBundle := some bundle

theorem build_ok_iff :
    build bundle = .ok (live, engine) ↔
      PolicyEngine.new P bundle = .ok engine ∧ live = running bundle engine := by
  unfold build
  constructor
  · intro h
    have ⟨made, hnew, heq⟩ := Except.map_eq_ok_iff.mp h
    have ⟨hlive, hengine⟩ := Prod.mk.inj heq
    rw [← hlive, ← hengine]
    exact ⟨hnew, rfl⟩
  · intro h
    rw [h.1, h.2]
    rfl

/-- No engine was asked for yet, or the engine is that of the bundle. -/
def Consistent (live : LivePolicyEvaluator P) : Prop :=
  live = .new ∨ ∃ bundle engine, PolicyEngine.new P bundle = .ok engine ∧
    live = running bundle engine

/-- The engine that is asked for is the active one, of the same version, or a new one. -/
theorem evaluatorFor_ok (hconsistent : live.Consistent)
    (h : live.evaluatorFor bundle = .ok (live', engine)) :
    ∃ active, PolicyEngine.new P active = .ok engine ∧ active.version = bundle.version ∧
      live' = running active engine ∧
      (live' = live ∨ active = bundle ∧ live.activeVersion ≠ some bundle.version) := by
  unfold evaluatorFor at h
  rcases hconsistent with hnone | ⟨active, built, hnew, hrunning⟩
  · rw [hnone] at h ⊢
    have ⟨hbuilt, hlive⟩ := build_ok_iff.mp h
    exact ⟨bundle, hbuilt, rfl, hlive, .inr ⟨rfl, (fun h => by cases h)⟩⟩
  · rw [hrunning] at h ⊢
    change (if some active.version = some bundle.version then .ok (running active built, built)
      else build bundle) = _ at h
    by_cases hversion : some active.version = some bundle.version
    · rw [if_pos hversion] at h
      have ⟨hlive, hengine⟩ := Prod.mk.inj (Except.ok.inj h)
      rw [← hlive, ← hengine]
      exact ⟨active, hnew, Option.some.inj hversion, rfl, .inl rfl⟩
    · rw [if_neg hversion] at h
      have ⟨hbuilt, hlive⟩ := build_ok_iff.mp h
      exact ⟨bundle, hbuilt, rfl, hlive, .inr ⟨rfl, hversion⟩⟩

/-- The engine stays, or the current bundle gets one. -/
theorem evaluate_running (hconsistent : live.Consistent) (current : Option Bundle)
    (request : PolicyRequest) :
    (live.evaluate current request).1 = live ∨ ∃ bundle engine, current = some bundle ∧
      (live.evaluate current request).1 = running bundle engine := by
  unfold evaluate
  split
  · exact .inl rfl
  · next bundle =>
    split
    · exact .inl rfl
    · next live' engine hfor =>
      have ⟨active, _, _, hrunning, hswitch⟩ := evaluatorFor_ok hconsistent hfor
      rcases hswitch with hsame | ⟨hbundle, _⟩
      · exact .inl hsame
      · exact .inr ⟨bundle, engine, rfl, hbundle ▸ hrunning⟩

/-- An evaluation is rejected, or the engine of a bundle with the current version has started
it. -/
theorem evaluate_cases (hconsistent : live.Consistent) (current : Option Bundle)
    (request : PolicyRequest) :
    (live.evaluate current request).1.Consistent ∧
      ((live.evaluate current request).1.activeVersion = live.activeVersion ∨
        ∃ bundle engine, current = some bundle ∧ PolicyEngine.new P bundle = .ok engine ∧
          live.activeVersion ≠ some bundle.version) ∧
      ∀ evaluation, (live.evaluate current request).2 = some evaluation →
        ∃ bundle active engine, current = some bundle ∧ active.version = bundle.version ∧
          PolicyEngine.new P active = .ok engine ∧
          (live.evaluate current request).1 = running active engine ∧
          engine.evaluate request = .ok evaluation := by
  unfold evaluate
  split
  · exact ⟨hconsistent, .inl rfl, fun _ h => by cases h⟩
  · next bundle =>
    split
    · exact ⟨hconsistent, .inl rfl, fun _ h => by cases h⟩
    · next live' engine hfor =>
      have ⟨active, hnew, hversion, hrunning, hswitch⟩ := evaluatorFor_ok hconsistent hfor
      refine ⟨.inr ⟨active, engine, hnew, hrunning⟩, ?_, fun evaluation h => ?_⟩
      · rcases hswitch with hsame | ⟨hbundle, hother⟩
        · exact .inl (congrArg activeVersion hsame)
        · exact .inr ⟨bundle, engine, rfl, hbundle ▸ hnew, hother⟩
      · refine ⟨bundle, active, engine, rfl, hversion, hnew, hrunning, ?_⟩
        cases hevaluate : engine.evaluate request with
        | error e =>
          rw [hevaluate] at h
          cases h
        | ok result =>
          rw [hevaluate] at h
          rw [Option.some.inj h]

end ShieldWard.Edge.LivePolicyEvaluator

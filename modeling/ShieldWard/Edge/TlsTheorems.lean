import ShieldWard.Edge.Tls
import ShieldWard.Lib.Sha256
import Mathlib.Data.List.Induction
import Mathlib.Data.Set.Function
import Mathlib.Tactic.FinCases

/-!
# Last-known-good material

The material of a reloader is that of the latest reload that loaded, validated and applied, in every
interleaving of calls and outcomes. `Conducted` lists how far a reload can have got and what it
compared its candidate with, which is the material that the reloads before it have left.
-/

namespace ShieldWard.Edge

open Bytes

variable {fields : List String}

/-! ## Fingerprints -/

/-- The strings without NUL, as PEM text is. -/
def TlsMaterial.NulFree (material : TlsMaterial fields) : Prop :=
  ∀ value ∈ material.values, '\x00' ∉ value.toList

/-- The characters before a NUL are recovered from a text that goes on after it. -/
theorem takeWhile_ne_nul {s : List Char} (hs : '\x00' ∉ s) (t : List Char) :
    (s ++ '\x00' :: t).takeWhile (· ≠ '\x00') = s := by
  rw [List.takeWhile_append_of_pos]
  · simp
  · intro c hc
    have hne : c ≠ '\x00' := fun hcz => hs (hcz ▸ hc)
    simpa using hne

/-- Values without NUL are recovered from their terminated concatenation. -/
theorem terminated_injective {values values' : List String}
    (hfree : ∀ value ∈ values, '\x00' ∉ value.toList)
    (hfree' : ∀ value ∈ values', '\x00' ∉ value.toList)
    (hlength : values.length = values'.length)
    (h : values.flatMap (fun value => value.toList ++ ['\x00']) =
      values'.flatMap (fun value => value.toList ++ ['\x00'])) : values = values' := by
  induction values generalizing values' with
  | nil => exact (List.length_eq_zero_iff.mp hlength.symm).symm
  | cons value values ih =>
    cases values' with
    | nil => cases hlength
    | cons value' values' =>
      obtain ⟨hvalue, hvalues⟩ := List.forall_mem_cons.mp hfree
      obtain ⟨hvalue', hvalues'⟩ := List.forall_mem_cons.mp hfree'
      simp only [List.flatMap_cons, List.append_assoc, List.singleton_append] at h
      have hfirst : value.toList = value'.toList := by
        rw [← takeWhile_ne_nul hvalue, h, takeWhile_ne_nul hvalue']
      rw [hfirst, List.append_cancel_left_eq, List.cons.injEq] at h
      rw [String.toList_inj.mp hfirst,
        ih hvalues hvalues' (Nat.succ.inj hlength) h.2]

/-- The hash is updated with the UTF-8 form of the terminated concatenation. -/
theorem TlsMaterial.hashed_eq (material : TlsMaterial fields) :
    material.hashed = utf8 (String.ofList
      (material.values.flatMap fun value => value.toList ++ ['\x00'])) := by
  have happend : ∀ values : List String,
      values.flatMap (fun value => utf8 value ++ utf8 "\x00") =
        utf8 (String.ofList (values.flatMap fun value => value.toList ++ ['\x00'])) := by
    intro values
    induction values with
    | nil => rfl
    | cons value values ih =>
      rw [List.flatMap_cons, ih, List.flatMap_cons, String.ofList_append, String.ofList_append,
        String.ofList_toList, utf8_append, utf8_append]
  exact happend material.values

theorem TlsMaterial.hashed_injective {material material' : TlsMaterial fields}
    (hfree : material.NulFree) (hfree' : material'.NulFree)
    (h : material.hashed = material'.hashed) : material = material' := by
  rw [hashed_eq, hashed_eq] at h
  have hvalues : material.values = material'.values :=
    terminated_injective hfree hfree' (material.complete.trans material'.complete.symm)
      (String.ofList_injective (utf8_injective h))
  cases material
  cases material'
  cases hvalues
  rfl

/-- Among materials without NUL on which the hash has no collision, the fingerprint is the
material. -/
theorem fingerprintMaterial_eq_iff {sha256 : Bytes → Bytes} {materials : Set (TlsMaterial fields)}
    (hfree : ∀ material ∈ materials, material.NulFree)
    (hcollision : Set.InjOn sha256 (TlsMaterial.hashed '' materials))
    {material material' : TlsMaterial fields} (h : material ∈ materials)
    (h' : material' ∈ materials) :
    fingerprintMaterial sha256 material = fingerprintMaterial sha256 material' ↔
      material = material' := by
  constructor
  · intro heq
    have hhash := hcollision ⟨material, h, rfl⟩ ⟨material', h', rfl⟩ (hex_injective heq)
    exact TlsMaterial.hashed_injective (hfree material h) (hfree material' h') hhash
  · rintro rfl
    rfl

/-! ## How far a reload can have got -/

/-- The material of a reload that loaded, validated and applied it. -/
def Reload.succeeded (reload : Reload fields) : Option (TlsMaterial fields) :=
  match reload.loaded, reload.validated, reload.applied with
  | some (.ok material), some (.ok ()), some (.ok ()) => some material
  | _, _, _ => none

/-- The material of the latest reload that succeeded, or the initial material. -/
def latest (initial : TlsMaterial fields) (reloads : List (Reload fields)) : TlsMaterial fields :=
  reloads.foldl (fun good reload => reload.succeeded.getD good) initial

@[simp] theorem latest_concat (initial : TlsMaterial fields) (reloads : List (Reload fields))
    (reload : Reload fields) :
    latest initial (reloads ++ [reload]) = reload.succeeded.getD (latest initial reloads) := by
  simp [latest, List.foldl_append]

/-- A reload against the material that it found. -/
inductive Conducted (sha256 : Bytes → Bytes) (good : TlsMaterial fields) : Reload fields → Prop
  | loading : Conducted sha256 good ⟨.loading, none, none, none, 0⟩
  | loadFailed (error : String) :
    Conducted sha256 good ⟨.settled (.error error), some (.error error), none, none, 0⟩
  | invalid (material : TlsMaterial fields) (error : String) :
    Conducted sha256 good
      ⟨.settled (.error error), some (.ok material), some (.error error), none, 0⟩
  | unchanged (material : TlsMaterial fields) :
    fingerprintMaterial sha256 material = fingerprintMaterial sha256 good →
    Conducted sha256 good
      ⟨.settled (.ok .unchanged), some (.ok material), some (.ok ()), none, 0⟩
  | applying (material : TlsMaterial fields) :
    fingerprintMaterial sha256 material ≠ fingerprintMaterial sha256 good →
    Conducted sha256 good
      ⟨.applying material (fingerprintMaterial sha256 material), some (.ok material),
        some (.ok ()), none, 1⟩
  | applyFailed (material : TlsMaterial fields) (error : String) :
    fingerprintMaterial sha256 material ≠ fingerprintMaterial sha256 good →
    Conducted sha256 good
      ⟨.settled (.error error), some (.ok material), some (.ok ()), some (.error error), 1⟩
  | updated (material : TlsMaterial fields) :
    fingerprintMaterial sha256 material ≠ fingerprintMaterial sha256 good →
    Conducted sha256 good
      ⟨.settled (.ok .updated), some (.ok material), some (.ok ()), some (.ok ()), 1⟩

variable {sha256 : Bytes → Bytes} {initial good : TlsMaterial fields} {reload next : Reload fields}

/-- A reload that is still going on has not succeeded. -/
theorem Conducted.succeeded_of_pending (h : Conducted sha256 good reload)
    (hpending : reload.stage.pending = true) : reload.succeeded = none := by
  cases h <;> first | rfl | cases hpending

/-- A reload in the stage of `load` has got no answer yet. -/
theorem Conducted.eq_of_loading (h : Conducted sha256 good reload)
    (hstage : reload.stage = .loading) : reload = ⟨.loading, none, none, none, 0⟩ := by
  cases h <;> first | rfl | cases hstage

theorem Conducted.eq_of_applying {material : TlsMaterial fields} {fingerprint : String}
    (h : Conducted sha256 good reload) (hstage : reload.stage = .applying material fingerprint) :
    fingerprint = fingerprintMaterial sha256 material ∧
      fingerprintMaterial sha256 material ≠ fingerprintMaterial sha256 good ∧
      reload = ⟨.applying material fingerprint, some (.ok material), some (.ok ()), none, 1⟩ := by
  cases h with
  | applying _ hne =>
    cases hstage
    exact ⟨rfl, hne, rfl⟩
  | _ => cases hstage

namespace TlsMaterialReloader

/-! ## The invariant -/

/-- What `load` has resolved with is among the materials. -/
def LoadsFrom (materials : Set (TlsMaterial fields)) (_ : TlsMaterialReloader fields) :
    Action fields → Prop
  | .loaded _ (.ok material) _ => material ∈ materials
  | _ => True

structure Consistent (sha256 : Bytes → Bytes) (materials : Set (TlsMaterial fields))
    (initial : TlsMaterial fields) (s : TlsMaterialReloader fields) : Prop where
  /-- A reload that goes on is the last one and has the promise in flight. -/
  pending : ∀ i reload, s.reloads[i]? = some reload → reload.stage.pending = true →
    s.reloadInFlight = some i ∧ i + 1 = s.reloads.length
  conducted : ∀ i reload, s.reloads[i]? = some reload →
    Conducted sha256 (latest initial (s.reloads.take i)) reload
  loaded : ∀ reload ∈ s.reloads, ∀ material, reload.loaded = some (.ok material) →
    material ∈ materials
  current : s.current = latest initial s.reloads
  fingerprint : s.fingerprint = fingerprintMaterial sha256 s.current
  /-- Callers are told how their promise settles. -/
  told : ∀ caller ∈ s.callers, ∀ result, caller.told = some result →
    ∃ reload, s.reloads[caller.operation]? = some reload ∧ reload.stage = .settled result

variable {materials : Set (TlsMaterial fields)} {s s' : TlsMaterialReloader fields} {i : ℕ}

/-- The reload that goes on, after those before it. -/
theorem Consistent.split (h : s.Consistent sha256 materials initial)
    (hreload : s.reloads[i]? = some reload) (hpending : reload.stage.pending = true) :
    s.reloads = s.reloads.take i ++ [reload] ∧ (s.reloads.take i).length = i := by
  obtain ⟨_, hlast⟩ := h.pending i reload hreload hpending
  obtain ⟨hi, hget⟩ := List.getElem?_eq_some_iff.mp hreload
  constructor
  · calc
      s.reloads = s.reloads.take (i + 1) := (List.take_of_length_le hlast.ge).symm
      _ = s.reloads.take i ++ [s.reloads[i]] := List.take_succ_eq_append_getElem hi
      _ = s.reloads.take i ++ [reload] := by rw [hget]
  · rw [List.length_take]
    omega

theorem Consistent.set_eq (h : s.Consistent sha256 materials initial)
    (hreload : s.reloads[i]? = some reload) (hpending : reload.stage.pending = true)
    (next : Reload fields) : s.reloads.set i next = s.reloads.take i ++ [next] := by
  obtain ⟨hsplit, hlength⟩ := h.split hreload hpending
  nth_rewrite 1 [hsplit]
  rw [List.set_append_right _ _ hlength.le, hlength, Nat.sub_self, List.set_cons_zero]

/-- While a reload goes on, the material is the one that the reloads before it have left. -/
theorem Consistent.current_of_pending (h : s.Consistent sha256 materials initial)
    (hreload : s.reloads[i]? = some reload) (hpending : reload.stage.pending = true) :
    s.current = latest initial (s.reloads.take i) := by
  have hnone := (h.conducted i reload hreload).succeeded_of_pending hpending
  have hsplit := (h.split hreload hpending).1
  calc
    s.current = latest initial s.reloads := h.current
    _ = latest initial (s.reloads.take i ++ [reload]) := by rw [← hsplit]
    _ = latest initial (s.reloads.take i) := by rw [latest_concat, hnone, Option.getD_none]

theorem consistent_initialized :
    (initialized sha256 initial).Consistent sha256 materials initial where
  pending := by simp [initialized]
  conducted := by simp [initialized]
  loaded := by simp [initialized]
  current := rfl
  fingerprint := rfl
  told := by simp [initialized]

/-- The reload that goes on gets further, and the material with it if it has succeeded. -/
theorem Consistent.advance (h : s.Consistent sha256 materials initial)
    (hreload : s.reloads[i]? = some reload) (hpending : reload.stage.pending = true)
    (hnext : Conducted sha256 s.current next)
    (hloaded : ∀ material, next.loaded = some (.ok material) → material ∈ materials)
    (hreloads : s'.reloads = s.reloads.set i next)
    (hcurrent : s'.current = next.succeeded.getD s.current)
    (hfingerprint : s'.fingerprint = fingerprintMaterial sha256 s'.current)
    (hflight : s'.reloadInFlight = s.reloadInFlight) (hcallers : s'.callers = s.callers) :
    s'.Consistent sha256 materials initial := by
  have hlength := (h.split hreload hpending).2
  have hgood := h.current_of_pending hreload hpending
  have hset : s'.reloads = s.reloads.take i ++ [next] :=
    hreloads.trans (h.set_eq hreload hpending next)
  constructor
  case pending =>
    intro j found hfound hgoing
    rw [hreloads, List.getElem?_set] at hfound
    rw [hflight, hreloads, List.length_set]
    split at hfound
    · next hij => exact hij ▸ h.pending i reload hreload hpending
    · exact h.pending j found hfound hgoing
  case conducted =>
    intro j found hfound
    have htake : j ≤ i → s'.reloads.take j = s.reloads.take j := by
      intro hji
      rw [hset, List.take_append_of_le_length (by omega), List.take_take, Nat.min_eq_left hji]
    have hi := (List.getElem?_eq_some_iff.mp hreload).1
    rw [hreloads, List.getElem?_set] at hfound
    split at hfound
    · next hij =>
      rw [htake hij.ge, ← hij, ← hgood, ← Option.some.inj hfound]
      exact hnext
    · have hj := (List.getElem?_eq_some_iff.mp hfound).1
      have hlast := (h.pending i reload hreload hpending).2
      rw [htake (by omega)]
      exact h.conducted j found hfound
  case loaded =>
    intro found hfound material hmaterial
    rw [hreloads] at hfound
    rcases List.mem_or_eq_of_mem_set hfound with hmem | rfl
    · exact h.loaded found hmem material hmaterial
    · exact hloaded material hmaterial
  case current => rw [hcurrent, hset, latest_concat, hgood]
  case fingerprint => exact hfingerprint
  case told =>
    intro caller hcaller result htold
    obtain ⟨found, hfound, hsettled⟩ := h.told caller (hcallers ▸ hcaller) result htold
    refine ⟨found, ?_, hsettled⟩
    rw [hreloads, List.getElem?_set_ne, hfound]
    -- The promise of a caller that was told has settled.
    rintro rfl
    rw [hreload] at hfound
    cases hfound
    rw [hsettled] at hpending
    cases hpending

theorem Consistent.called (h : s.Consistent sha256 materials initial) (byTimer : Bool) :
    (s.reload byTimer).Consistent sha256 materials initial := by
  -- the new caller has been told nothing
  have hnew : ∀ operation, ∀ caller ∈ s.callers ++ [{ operation, byTimer, told := none }],
      ∀ result, caller.told = some result → caller ∈ s.callers := by
    intro operation caller hcaller result htold
    rcases List.mem_append.mp hcaller with hmem | hmem
    · exact hmem
    · cases List.mem_singleton.mp hmem
      cases htold
  unfold TlsMaterialReloader.reload
  split
  -- it joins the reload that goes on
  · next operation hflight =>
    exact ⟨h.pending, h.conducted, h.loaded, h.current, h.fingerprint,
      fun caller hcaller result htold =>
        h.told caller (hnew operation caller hcaller result htold) result htold⟩
  · next hflight =>
    -- no reload goes on, so the new one is the only one
    have hnone : ∀ (j : ℕ) (found : Reload fields), s.reloads[j]? = some found →
        found.stage.pending = false := by
      intro j found hfound
      by_contra hgoing
      have hsome := (h.pending j found hfound (by simpa using hgoing)).1
      rw [hflight] at hsome
      cases hsome
    have hcases : ∀ {j : ℕ} {found : Reload fields} {rest : List (Reload fields)},
        (s.reloads ++ rest)[j]? = some found →
          s.reloads[j]? = some found ∨ s.reloads.length ≤ j := by
      intro j found rest hfound
      rcases Nat.lt_or_ge j s.reloads.length with hj | hj
      · exact .inl (by rwa [List.getElem?_append_left hj] at hfound)
      · exact .inr hj
    constructor
    case pending =>
      intro j found hfound hgoing
      rcases hcases hfound with hold | hj
      · rw [hnone j found hold] at hgoing
        cases hgoing
      · have hlt := (List.getElem?_eq_some_iff.mp hfound).1
        simp only [List.length_append, List.length_singleton] at hlt ⊢
        have hjs : j = s.reloads.length := by omega
        exact ⟨by rw [hjs], by rw [hjs]⟩
    case conducted =>
      intro j found hfound
      rcases hcases hfound with hold | hj
      · have hlt := (List.getElem?_eq_some_iff.mp hold).1
        simp only [List.take_append_of_le_length hlt.le]
        exact h.conducted j found hold
      · simp only [List.getElem?_append_right hj] at hfound
        have hfresh := List.mem_singleton.mp (List.mem_of_getElem? hfound)
        rw [hfresh]
        exact .loading
    case loaded =>
      intro found hfound material hmaterial
      rcases List.mem_append.mp hfound with hmem | hmem
      · exact h.loaded found hmem material hmaterial
      · cases List.mem_singleton.mp hmem
        cases hmaterial
    case current =>
      simp only [latest_concat]
      exact h.current
    case fingerprint => exact h.fingerprint
    case told =>
      intro caller hcaller result htold
      obtain ⟨found, hfound, hsettled⟩ :=
        h.told caller (hnew _ caller hcaller result htold) result htold
      refine ⟨found, ?_, hsettled⟩
      have hlt := (List.getElem?_eq_some_iff.mp hfound).1
      simp only [List.getElem?_append_left hlt]
      exact hfound

theorem Consistent.afterLoad (h : s.Consistent sha256 materials initial)
    (hreload : s.reloads[i]? = some reload) (hstage : reload.stage = .loading)
    {outcome : Except String (TlsMaterial fields)} (validation : Except String Unit)
    (hmem : ∀ material, outcome = .ok material → material ∈ materials) :
    (s.afterLoad sha256 i reload outcome validation).Consistent sha256 materials initial := by
  have hpending : reload.stage.pending = true := by
    rw [hstage]
    rfl
  have hfresh := (h.conducted i reload hreload).eq_of_loading hstage
  subst hfresh
  have hof : ∀ next : Reload fields, next.succeeded = none → Conducted sha256 s.current next →
      next.loaded = some outcome → (s.advance i next).Consistent sha256 materials initial := by
    intro next hnone hnext houtcome
    refine h.advance hreload hpending hnext ?_ rfl ?_ h.fingerprint rfl rfl
    · intro material hmaterial
      rw [houtcome] at hmaterial
      exact hmem material (Option.some.inj hmaterial)
    · rw [hnone]
      rfl
  cases outcome with
  | error error => exact hof _ rfl (.loadFailed error) rfl
  | ok material =>
    cases validation with
    | error error => exact hof _ rfl (.invalid material error) rfl
    | ok value =>
      rw [TlsMaterialReloader.afterLoad]
      dsimp only
      split
      · next heq => exact hof _ rfl (.unchanged material (heq.trans h.fingerprint)) rfl
      · next hne =>
        have hdifferent : fingerprintMaterial sha256 material ≠
            fingerprintMaterial sha256 s.current := fun heq => hne (heq.trans h.fingerprint.symm)
        exact hof _ rfl (.applying material hdifferent) rfl

theorem Consistent.afterApply (h : s.Consistent sha256 materials initial)
    (hreload : s.reloads[i]? = some reload) {material : TlsMaterial fields} {fingerprint : String}
    (hstage : reload.stage = .applying material fingerprint)
    (outcome observer : Except String Unit) :
    (s.afterApply i reload material fingerprint outcome observer).Consistent
      sha256 materials initial := by
  have hpending : reload.stage.pending = true := by
    rw [hstage]
    rfl
  have hgood := h.current_of_pending hreload hpending
  obtain ⟨hfingerprint, hne, heq⟩ := (h.conducted i reload hreload).eq_of_applying hstage
  rw [← hgood] at hne
  subst hfingerprint
  have hmaterial : material ∈ materials :=
    h.loaded reload (List.mem_of_getElem? hreload) material (by rw [heq])
  subst heq
  have hof : ∀ found, some (Except.ok (ε := String) material) = some (.ok found) →
      found ∈ materials := by
    rintro _ ⟨⟩
    exact hmaterial
  cases outcome with
  | error error =>
    exact h.advance hreload hpending (.applyFailed material error hne) hof rfl rfl h.fingerprint
      rfl rfl
  | ok value =>
    cases observer <;>
      exact h.advance hreload hpending (.updated material hne) hof rfl rfl rfl rfl rfl

/-- A step that keeps the reloads, the material and its fingerprint, and the promise in flight while
a reload goes on. -/
theorem Consistent.frame (h : s.Consistent sha256 materials initial)
    (hreloads : s'.reloads = s.reloads) (hcurrent : s'.current = s.current)
    (hfingerprint : s'.fingerprint = s.fingerprint)
    (hflight : ∀ (i : ℕ) (reload : Reload fields), s.reloads[i]? = some reload →
      reload.stage.pending = true → s'.reloadInFlight = s.reloadInFlight)
    (htold : ∀ caller ∈ s'.callers, ∀ result, caller.told = some result →
      ∃ reload, s.reloads[caller.operation]? = some reload ∧ reload.stage = .settled result) :
    s'.Consistent sha256 materials initial where
  pending i reload hreload hpending := by
    rw [hreloads] at hreload ⊢
    rw [hflight i reload hreload hpending]
    exact h.pending i reload hreload hpending
  conducted := by
    rw [hreloads]
    exact h.conducted
  loaded := by
    rw [hreloads]
    exact h.loaded
  current := by
    rw [hreloads, hcurrent]
    exact h.current
  fingerprint := by
    rw [hfingerprint, hcurrent]
    exact h.fingerprint
  told := by
    rw [hreloads]
    exact htold

theorem Consistent.clearInFlight (h : s.Consistent sha256 materials initial)
    (hreload : s.reloads[i]? = some reload) (hsettled : reload.stage.pending = false) :
    (s.clearInFlight i).Consistent sha256 materials initial := by
  unfold TlsMaterialReloader.clearInFlight
  split
  · next hflight =>
    refine h.frame rfl rfl rfl (fun j found hfound hgoing => ?_) h.told
    -- The promise in flight is the one of the reload that goes on, which has not settled.
    have hsome := (h.pending j found hfound hgoing).1
    rw [hflight] at hsome
    cases hsome
    rw [hreload] at hfound
    cases hfound
    rw [hsettled] at hgoing
    cases hgoing
  · exact h

theorem Consistent.deliver (h : s.Consistent sha256 materials initial) (index : ℕ)
    {caller : ReloadCaller} {result : Except String TlsReloadResult}
    (hreload : s.reloads[caller.operation]? = some reload) (hstage : reload.stage = .settled result)
    (observer : Except String Unit) :
    (s.deliver index caller result observer).Consistent sha256 materials initial := by
  have htold : ∀ told ∈ s.callers.set index { caller with told := some result },
      ∀ answer, told.told = some answer →
        ∃ found, s.reloads[told.operation]? = some found ∧ found.stage = .settled answer := by
    intro told hmem answer hanswer
    rcases List.mem_or_eq_of_mem_set hmem with hold | rfl
    · exact h.told told hold answer hanswer
    · cases hanswer
      exact ⟨reload, hreload, hstage⟩
  unfold TlsMaterialReloader.deliver
  split
  · cases observer <;> exact h.frame rfl rfl rfl (fun _ _ _ _ => rfl) htold
  · exact h.frame rfl rfl rfl (fun _ _ _ _ => rfl) htold

/-- What a step can do. -/
inductive Stepped (sha256 : Bytes → Bytes) (s : TlsMaterialReloader fields) :
    Action fields → TlsMaterialReloader fields → Prop
  | reload (byTimer : Bool) : Stepped sha256 s (.reload byTimer) (s.reload byTimer)
  | loaded {i : ℕ} {reload : Reload fields} (outcome : Except String (TlsMaterial fields))
    (validation : Except String Unit) : s.reloads[i]? = some reload → reload.stage = .loading →
    Stepped sha256 s (.loaded i outcome validation)
      (s.afterLoad sha256 i reload outcome validation)
  | applied {i : ℕ} {reload : Reload fields} {material : TlsMaterial fields} {fingerprint : String}
    (outcome observer : Except String Unit) : s.reloads[i]? = some reload →
    reload.stage = .applying material fingerprint →
    Stepped sha256 s (.applied i outcome observer)
      (s.afterApply i reload material fingerprint outcome observer)
  | clearInFlight {i : ℕ} {reload : Reload fields} {result : Except String TlsReloadResult} :
    s.reloads[i]? = some reload → reload.stage = .settled result →
    Stepped sha256 s (.clearInFlight i) (s.clearInFlight i)
  | delivered {index : ℕ} {caller : ReloadCaller} {reload : Reload fields}
    {result : Except String TlsReloadResult} (observer : Except String Unit) :
    s.reloads[caller.operation]? = some reload → reload.stage = .settled result →
    Stepped sha256 s (.delivered index observer) (s.deliver index caller result observer)

theorem step_cases {a : Action fields} (h : step sha256 s a = some s') : Stepped sha256 s a s' := by
  cases a with
  | reload byTimer =>
    cases h
    exact .reload byTimer
  | loaded operation outcome validation =>
    obtain ⟨reload, hreload, hnext⟩ := Option.bind_eq_some_iff.mp h
    split at hnext
    · next hstage =>
      cases hnext
      exact .loaded outcome validation hreload hstage
    · cases hnext
  | applied operation outcome observer =>
    obtain ⟨reload, hreload, hnext⟩ := Option.bind_eq_some_iff.mp h
    split at hnext
    · next hstage =>
      cases hnext
      exact .applied outcome observer hreload hstage
    · cases hnext
  | clearInFlight operation =>
    obtain ⟨reload, hreload, hnext⟩ := Option.bind_eq_some_iff.mp h
    split at hnext
    · next hstage =>
      cases hnext
      exact .clearInFlight hreload hstage
    · cases hnext
  | delivered index observer =>
    obtain ⟨caller, _, hcalled⟩ := Option.bind_eq_some_iff.mp h
    obtain ⟨reload, hreload, hnext⟩ := Option.bind_eq_some_iff.mp hcalled
    split at hnext
    · next hstage =>
      cases hnext
      exact .delivered observer hreload hstage
    · cases hnext

theorem Consistent.step {a : Action fields} (h : s.Consistent sha256 materials initial)
    (ha : LoadsFrom materials s a) (hs : step sha256 s a = some s') :
    s'.Consistent sha256 materials initial := by
  cases step_cases hs with
  | reload byTimer => exact h.called byTimer
  | loaded outcome validation hreload hstage =>
    refine h.afterLoad hreload hstage validation ?_
    rintro material rfl
    exact ha
  | applied outcome observer hreload hstage => exact h.afterApply hreload hstage outcome observer
  | clearInFlight hreload hstage =>
    refine h.clearInFlight hreload ?_
    rw [hstage]
    rfl
  | @delivered index _ _ _ observer hreload hstage => exact h.deliver index hreload hstage observer

theorem consistent_of_reachable
    (h : (machine sha256 initial).ReachableBy (LoadsFrom materials) s) :
    s.Consistent sha256 materials initial := by
  refine h.invariant ?_ fun _ _ _ hs ha hstep => hs.step ha hstep
  rintro _ rfl
  exact consistent_initialized

/-! ## What a step changes -/

/-- The reload was going on, and the step settles it. -/
def Settles (s s' : TlsMaterialReloader fields) (i : ℕ) (result : Except String TlsReloadResult) :
    Prop :=
  (∃ reload, s.reloads[i]? = some reload ∧ reload.stage.pending = true) ∧
    ∃ reload, s'.reloads[i]? = some reload ∧ reload.stage = .settled result

theorem exists_afterLoad_eq (i : ℕ) (reload : Reload fields)
    (outcome : Except String (TlsMaterial fields)) (validation : Except String Unit) :
    ∃ next, s.afterLoad sha256 i reload outcome validation = s.advance i next := by
  unfold TlsMaterialReloader.afterLoad
  cases outcome with
  | error error => exact ⟨_, rfl⟩
  | ok material =>
    cases validation with
    | error error => exact ⟨_, rfl⟩
    | ok value =>
      dsimp only
      split <;> exact ⟨_, rfl⟩

/-- While a reload goes on, a step changes no other. -/
theorem Consistent.reloads_step {a : Action fields} (h : s.Consistent sha256 materials initial)
    (hs : TlsMaterialReloader.step sha256 s a = some s') (hreload : s.reloads[i]? = some reload)
    (hpending : reload.stage.pending = true) : ∃ next, s'.reloads = s.reloads.set i next := by
  have hi := (List.getElem?_eq_some_iff.mp hreload).1
  have hsame : s.reloads = s.reloads.set i reload := by
    refine (List.ext_getElem? fun j => ?_).symm
    rw [List.getElem?_set]
    split
    · next hij => rw [← hij, hreload]
    · rfl
  have honly : ∀ (j : ℕ) (found : Reload fields), s.reloads[j]? = some found →
      found.stage.pending = true → j = i := by
    intro j found hfound hgoing
    have hj := (h.pending j found hfound hgoing).2
    have hlast := (h.pending i reload hreload hpending).2
    omega
  cases step_cases hs with
  | reload byTimer =>
    refine ⟨reload, ?_⟩
    rw [TlsMaterialReloader.reload, (h.pending i reload hreload hpending).1]
    exact hsame
  | loaded outcome validation hfound hstage =>
    obtain ⟨next, hnext⟩ := @exists_afterLoad_eq _ sha256 s _ _ outcome validation
    rw [hnext, ← honly _ _ hfound (by rw [hstage]; rfl)]
    exact ⟨next, rfl⟩
  | applied outcome observer hfound hstage =>
    rw [← honly _ _ hfound (by rw [hstage]; rfl)]
    cases outcome with
    | error error => exact ⟨_, rfl⟩
    | ok value => cases observer <;> exact ⟨_, rfl⟩
  | clearInFlight =>
    refine ⟨reload, ?_⟩
    unfold TlsMaterialReloader.clearInFlight
    split <;> exact hsame
  | delivered observer =>
    refine ⟨reload, ?_⟩
    unfold TlsMaterialReloader.deliver
    split
    · cases observer <;> exact hsame
    · exact hsame

/-- How the material comes out of a step that settles a reload. -/
theorem Consistent.settles {a : Action fields} {result : Except String TlsReloadResult}
    (h : s.Consistent sha256 materials initial) (h' : s'.Consistent sha256 materials initial)
    (hs : TlsMaterialReloader.step sha256 s a = some s') (hi : Settles s s' i result) :
    ∃ next, s'.reloads[i]? = some next ∧ next.stage = .settled result ∧
      Conducted sha256 s.current next ∧ s'.current = next.succeeded.getD s.current := by
  obtain ⟨⟨reload, hreload, hpending⟩, found, hfound, hstage⟩ := hi
  obtain ⟨next, hnext⟩ := h.reloads_step hs hreload hpending
  have hlength := (h.split hreload hpending).2
  have hset : s'.reloads = s.reloads.take i ++ [next] :=
    hnext.trans (h.set_eq hreload hpending next)
  have hgood := h.current_of_pending hreload hpending
  have hget : s'.reloads[i]? = some next := by
    rw [hset, List.getElem?_append_right hlength.le, hlength, Nat.sub_self, List.getElem?_cons_zero]
  have hconducted := h'.conducted i next hget
  rw [hset, List.take_append_of_le_length hlength.ge, List.take_take, Nat.min_self, ← hgood]
    at hconducted
  have heq : next = found := Option.some.inj (hget.symm.trans hfound)
  refine ⟨next, hget, heq ▸ hstage, hconducted, ?_⟩
  rw [h'.current, hset, latest_concat, hgood]

/-- The material and its fingerprint change together, and only when a reload succeeds. -/
theorem kept_or_updated {a : Action fields} (hs : step sha256 s a = some s') :
    s'.current = s.current ∧ s'.fingerprint = s.fingerprint ∨
      ∃ i, Settles s s' i (.ok .updated) := by
  cases step_cases hs with
  | reload byTimer =>
    unfold TlsMaterialReloader.reload
    split <;> exact .inl ⟨rfl, rfl⟩
  | @loaded i reload outcome validation =>
    obtain ⟨next, hnext⟩ := @exists_afterLoad_eq _ sha256 s i reload outcome validation
    rw [hnext]
    exact .inl ⟨rfl, rfl⟩
  | @applied i reload _ _ outcome observer hreload hstage =>
    have hi := (List.getElem?_eq_some_iff.mp hreload).1
    cases outcome with
    | error error => exact .inl ⟨rfl, rfl⟩
    | ok value =>
      refine .inr ⟨i, ⟨reload, hreload, by rw [hstage]; rfl⟩, ?_⟩
      cases observer <;> exact ⟨_, List.getElem?_set_self hi, rfl⟩
  | clearInFlight =>
    unfold TlsMaterialReloader.clearInFlight
    split <;> exact .inl ⟨rfl, rfl⟩
  | delivered observer =>
    unfold TlsMaterialReloader.deliver
    split
    · cases observer <;> exact .inl ⟨rfl, rfl⟩
    · exact .inl ⟨rfl, rfl⟩

/-- What holds of a reloader between two steps. -/
structure KeepsLastKnownGood (initial : TlsMaterial fields) (s : TlsMaterialReloader fields) :
    Prop where
  /-- At most one `load` or `apply` is in progress. -/
  single : ∀ (i j : ℕ) (reload reload' : Reload fields), s.reloads[i]? = some reload →
    s.reloads[j]? = some reload' → reload.stage.pending = true → reload'.stage.pending = true →
    i = j
  current : s.current = latest initial s.reloads
  /-- `apply` is called with every valid candidate other than the material that the reloads before
  have left, so also with one that it has rejected, and with no other candidate. -/
  tried : ∀ i reload material, s.reloads[i]? = some reload →
    reload.loaded = some (.ok material) → reload.validated = some (.ok ()) →
    reload.applications = if material = latest initial (s.reloads.take i) then 0 else 1
  unapplied : ∀ reload ∈ s.reloads, reload.validated ≠ some (.ok ()) → reload.applications = 0
  /-- A caller is told `unchanged` only if the candidate was the material. -/
  unchanged : ∀ caller ∈ s.callers, caller.told = some (.ok .unchanged) →
    ∃ reload, s.reloads[caller.operation]? = some reload ∧
      reload.loaded = some (.ok (latest initial (s.reloads.take caller.operation))) ∧
      reload.applications = 0

/-- What one step does to the material. -/
structure Rotates (sha256 : Bytes → Bytes) (s s' : TlsMaterialReloader fields) : Prop where
  kept : (∀ i, ¬Settles s s' i (.ok .updated)) →
    s'.current = s.current ∧ s'.fingerprint = s.fingerprint
  rejected : ∀ i error, Settles s s' i (.error error) →
    s'.current = s.current ∧ s'.fingerprint = s.fingerprint
  unchanged : ∀ i, Settles s s' i (.ok .unchanged) → s'.current = s.current ∧
    ∃ reload, s'.reloads[i]? = some reload ∧ reload.loaded = some (.ok s'.current) ∧
      reload.applications = 0
  updated : ∀ i, Settles s s' i (.ok .updated) →
    s'.fingerprint = fingerprintMaterial sha256 s'.current ∧
    ∃ reload, s'.reloads[i]? = some reload ∧ reload.succeeded = some s'.current

/-- The materials that are good in some part of the run. -/
theorem latest_mem {reloads : List (Reload fields)} (hinitial : initial ∈ materials)
    (h : ∀ reload ∈ reloads, ∀ material, reload.loaded = some (.ok material) →
      material ∈ materials) : latest initial reloads ∈ materials := by
  induction reloads using List.reverseRecOn with
  | nil => exact hinitial
  | append_singleton reloads reload ih =>
    obtain ⟨hreloads, hreload⟩ := List.forall_mem_append.mp h
    rw [latest_concat]
    cases hsucceeded : reload.succeeded with
    | none => exact ih hreloads
    | some material =>
      refine hreload reload (List.mem_singleton_self reload) material ?_
      unfold Reload.succeeded at hsucceeded
      split at hsucceeded
      · next hloaded _ _ =>
        cases hsucceeded
        exact hloaded
      · cases hsucceeded

theorem Consistent.keepsLastKnownGood (h : s.Consistent sha256 materials initial)
    (hinitial : initial ∈ materials) (hfree : ∀ material ∈ materials, material.NulFree)
    (hcollision : Set.InjOn sha256 (TlsMaterial.hashed '' materials)) :
    s.KeepsLastKnownGood initial := by
  have hgood : ∀ i, latest initial (s.reloads.take i) ∈ materials := fun i =>
    latest_mem hinitial fun reload hreload => h.loaded reload (List.mem_of_mem_take hreload)
  -- without a collision the fingerprints tell the materials apart
  have hsame : ∀ i material, material ∈ materials →
      (fingerprintMaterial sha256 material =
        fingerprintMaterial sha256 (latest initial (s.reloads.take i)) ↔
      material = latest initial (s.reloads.take i)) := fun i material hmaterial =>
    fingerprintMaterial_eq_iff hfree hcollision hmaterial (hgood i)
  constructor
  case single =>
    intro i j reload reload' hreload hreload' hpending hpending'
    have hi := (h.pending i reload hreload hpending).2
    have hj := (h.pending j reload' hreload' hpending').2
    omega
  case current => exact h.current
  case tried =>
    intro i reload material hreload hloaded hvalidated
    have hmaterial := h.loaded reload (List.mem_of_getElem? hreload) material hloaded
    cases h.conducted i reload hreload with
    | loading | loadFailed => cases hloaded
    | invalid => cases hvalidated
    | unchanged found heq =>
      cases hloaded
      rw [if_pos ((hsame i material hmaterial).mp heq)]
    | applying found hne | applyFailed found _ hne | updated found hne =>
      cases hloaded
      rw [if_neg ((hsame i material hmaterial).not.mp hne)]
  case unapplied =>
    intro reload hreload hvalidated
    obtain ⟨i, hi⟩ := List.getElem?_of_mem hreload
    cases h.conducted i reload hi with
    | loading | loadFailed | invalid => rfl
    | _ => exact absurd rfl hvalidated
  case unchanged =>
    intro caller hcaller htold
    obtain ⟨reload, hreload, hstage⟩ := h.told caller hcaller _ htold
    refine ⟨reload, hreload, ?_⟩
    cases h.conducted caller.operation reload hreload with
    | unchanged material heq =>
      have hmaterial := h.loaded _ (List.mem_of_getElem? hreload) material rfl
      rw [← (hsame caller.operation material hmaterial).mp heq]
      exact ⟨rfl, rfl⟩
    | _ => cases hstage

theorem Consistent.rotates {a : Action fields} (h : s.Consistent sha256 materials initial)
    (ha : LoadsFrom materials s a) (hs : TlsMaterialReloader.step sha256 s a = some s')
    (hinitial : initial ∈ materials) (hfree : ∀ material ∈ materials, material.NulFree)
    (hcollision : Set.InjOn sha256 (TlsMaterial.hashed '' materials)) :
    s.Rotates sha256 s' := by
  have h' := h.step ha hs
  have hfingerprint : s'.current = s.current → s'.fingerprint = s.fingerprint := by
    intro hcurrent
    rw [h'.fingerprint, h.fingerprint, hcurrent]
  constructor
  case kept =>
    intro hnone
    rcases kept_or_updated hs with hkept | ⟨i, hi⟩
    · exact hkept
    · exact absurd hi (hnone i)
  case rejected =>
    intro i error hi
    obtain ⟨next, _, hstage, hnext, hcurrent⟩ := h.settles h' hs hi
    have hsame : s'.current = s.current := by
      cases hnext with
      | loadFailed | invalid | applyFailed => exact hcurrent
      | _ => cases hstage
    exact ⟨hsame, hfingerprint hsame⟩
  case unchanged =>
    intro i hi
    obtain ⟨next, hget, hstage, hnext, hcurrent⟩ := h.settles h' hs hi
    cases hnext with
    | unchanged material heq =>
      have hgood : s.current ∈ materials := h.current ▸ latest_mem hinitial h.loaded
      have hmaterial := h'.loaded _ (List.mem_of_getElem? hget) material rfl
      have hsame := (fingerprintMaterial_eq_iff hfree hcollision hmaterial hgood).mp heq
      exact ⟨hcurrent, _, hget, by rw [hsame, hcurrent]; rfl, rfl⟩
    | _ => cases hstage
  case updated =>
    intro i hi
    obtain ⟨next, hget, hstage, hnext, hcurrent⟩ := h.settles h' hs hi
    cases hnext with
    | updated material hne => exact ⟨h'.fingerprint, _, hget, by rw [hcurrent]; rfl⟩
    | _ => cases hstage

/-- In every interleaving of reloads, of materials without NUL and without a collision of the hash,
one reload goes on at a time, the material is that of the latest reload that succeeded, a reload
that rejects leaves it and its fingerprint alone, and a candidate is passed over only if it is the
material. What an observer throws changes nothing. -/
theorem last_known_good_kept (hinitial : initial ∈ materials)
    (hfree : ∀ material ∈ materials, material.NulFree)
    (hcollision : Set.InjOn sha256 (TlsMaterial.hashed '' materials))
    (h : (machine sha256 initial).ReachableBy (LoadsFrom materials) s) :
    s.KeepsLastKnownGood initial ∧
      (∀ a s', LoadsFrom materials s a → step sha256 s a = some s' → s.Rotates sha256 s') ∧
      (∀ i outcome thrown, step sha256 s (.applied i outcome (.error thrown)) =
        step sha256 s (.applied i outcome (.ok ()))) ∧
      ∀ index thrown, step sha256 s (.delivered index (.error thrown)) =
        step sha256 s (.delivered index (.ok ())) := by
  have hs := consistent_of_reachable h
  exact ⟨hs.keepsLastKnownGood hinitial hfree hcollision,
    fun a s' ha hstep => hs.rotates ha hstep hinitial hfree hcollision,
    fun _ _ _ => rfl, fun _ _ => rfl⟩

namespace Rotation

/-- The material of a server. -/
def serving (certificate privateKey : String) :
    TlsMaterial ["certificate", "privateKey"] where
  values := [certificate, privateKey]
  complete := rfl

def first : TlsMaterial ["certificate", "privateKey"] := serving "certificate 1" "key 1"

def second : TlsMaterial ["certificate", "privateKey"] := serving "certificate 2" "key 2"

/-- The second material fails to apply, and is applied when it is loaded again. -/
def actions : List (Action ["certificate", "privateKey"]) :=
  [.reload false, .reload true, .loaded 0 (.ok second) (.ok ()),
    .applied 0 (.error "listener closed") (.ok ()), .delivered 1 (.error "log full"),
    .clearInFlight 0, .reload true, .loaded 1 (.ok second) (.ok ()),
    .applied 1 (.ok ()) (.error "log full")]

/-- The material after the actions, and how often `apply` was called. -/
def outcome : Option (TlsMaterial ["certificate", "privateKey"] × List ℕ) :=
  ((machine Sha256.hash first).run (initialized Sha256.hash first) actions).map fun s =>
    (s.current, s.reloads.map (·.applications))

theorem outcome_eq : outcome = some (second, [1, 1]) := by decide +kernel

theorem hash_first_ne_hash_second :
    Sha256.hash first.hashed ≠ Sha256.hash second.hashed := by decide +kernel

theorem last_known_good_kept_retried :
    ∃ s, (machine Sha256.hash first).run (initialized Sha256.hash first) actions = some s ∧
      s.current = second ∧ s.KeepsLastKnownGood first := by
  obtain ⟨s, hrun, hs⟩ := Option.map_eq_some_iff.mp outcome_eq
  refine ⟨s, hrun, congrArg Prod.fst hs, ?_⟩
  have hreachable : (machine Sha256.hash first).ReachableBy (LoadsFrom {first, second}) s := by
    refine .of_run actions ?_ (.init rfl) hrun
    intro a ha t
    fin_cases ha <;> simp [LoadsFrom]
  refine (last_known_good_kept (Set.mem_insert first {second}) ?_ ?_ hreachable).1
  · rintro material (rfl | rfl) value hvalue <;> fin_cases hvalue <;> decide
  · rintro _ ⟨material, hmaterial, rfl⟩ _ ⟨material', hmaterial', rfl⟩ heq
    rcases hmaterial with rfl | rfl <;> rcases hmaterial' with rfl | rfl
    · rfl
    · exact absurd heq hash_first_ne_hash_second
    · exact absurd heq.symm hash_first_ne_hash_second
    · rfl

end Rotation

end TlsMaterialReloader
end ShieldWard.Edge

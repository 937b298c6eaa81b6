import ShieldWard.Control.CompilerTheorems
import ShieldWard.Control.Watch
import ShieldWard.Delivery.Sync
import ShieldWard.Delivery.Signed

/-!
# Versions as content addresses

The watcher publishes nothing when the version of what it has loaded is the version in the store,
and the synchronizer requests nothing when the announced version is the one that it has. Both take
an equal version for an equal bundle. It is one, unless two request counts from `2 ^ 53` on are
read as one double.
-/

namespace ShieldWard.Delivery

open Json

/-- Whoever holds the first bundle and meets the version of the second one has that bundle. -/
structure ContentAddressed (G : Control.GoPlatform) (bundle bundle' : Control.Bundle) : Prop where
  version : bundle.version = bundle'.version → bundle = bundle'
  /-- A load of the second bundle is dropped only when the store has it. -/
  watcher : ∀ (s : Control.Watch.State) (envelope : Control.Envelope) (content : Bytes),
    s.current.map (·.version) = some bundle.version → envelope.bundle = bundle' →
      (Control.Watch.publish G s envelope content).reloads = s.reloads → bundle = bundle'
  /-- An edge with the first bundle stays with it at the announcement of the second one only when
  they are the same. -/
  edge : ∀ (client : Edge.ConfigurationClient) (held : Edge.SnapshotObject) (signal : ℕ)
    (announced : Control.Snapshot), client.snapshot = some held →
      Equiv held.value.bundle.toJson bundle.toJson → announced.version = bundle'.version →
        (Edge.processEvent false signal client (Sync.announcement announced)).1 = .finished →
          bundle = bundle'

/-- A publish that is skipped has met the version in the store. -/
theorem version_of_publish_skipped {G : Control.GoPlatform} {s : Control.Watch.State}
    {envelope : Control.Envelope} {content : Bytes}
    (h : (Control.Watch.publish G s envelope content).reloads = s.reloads) :
    s.current.map (·.version) = some envelope.bundle.version := by
  by_contra hversion
  have hlength := congrArg List.length h
  unfold Control.Watch.publish at hlength
  simp only [hversion, if_false] at hlength
  split at hlength
  · simp [Control.Watch.State.reject] at hlength
  · simp at hlength

/-- An event that is handled without a refresh has announced the version that the edge has. -/
theorem version_of_event_finished {signal : ℕ} {client : Edge.ConfigurationClient}
    {announced : Control.Snapshot}
    (h : (Edge.processEvent false signal client (Sync.announcement announced)).1 = .finished) :
    client.snapshot.map (·.value.bundle.version) = some announced.version := by
  unfold Edge.processEvent Sync.announcement Control.bundleEvent at h
  simp only [Bool.false_or, ne_eq, decide_not] at h
  split_ifs at h with hevent
  split at h
  · cases h
  · next announcedVersion hversion =>
    rw [Edge.parseBundleEventVersion_ok hversion] at h
    split at h
    · cases h
    · next hsame => exact (not_not.mp hsame).symm

/-- The version of the bundle that the edge holds is the version of the bundle that travelled. -/
theorem held_version {held : Edge.Bundle} {bundle : Control.Bundle} (hversion : bundle.version ≠ "")
    (h : Equiv held.toJson bundle.toJson) : held.version = bundle.version := by
  have hfield := Equiv.sameField h "version"
  simpa [Edge.UnversionedBundle.fields, Control.lookup_omitEmpty, List.lookup_cons, hversion,
    eq_comm] using hfield

theorem content_address_iff (G : Control.GoPlatform) (hjcs : Control.Rfc8785 G.numberText)
    (document document' : Control.Document) (bundle bundle' : Control.Bundle)
    (hcompile : Control.compile G document = .ok bundle)
    (hcompile' : Control.compile G document' = .ok bundle')
    (hint : document.FitsGoInt) (hint' : document'.FitsGoInt)
    (hcollision : Control.CollisionFree G bundle bundle') :
    ContentAddressed G bundle bundle' ↔
      (document.rounded = document'.rounded → document = document') := by
  have hversion := Control.version_eq_iff hjcs hcompile hcompile' hint hint' hcollision
  have hbundle := Control.bundle_eq_iff hcompile hcompile'
  constructor
  · intro h hrounded
    exact hbundle.mp (h.version (hversion.mpr hrounded))
  · intro h
    have hsame : bundle.version = bundle'.version → bundle = bundle' :=
      fun heq => hbundle.mpr (h (hversion.mp heq))
    refine ⟨hsame, ?_, ?_⟩
    · intro s envelope content hcurrent henvelope hskipped
      have hmet := version_of_publish_skipped hskipped
      rw [hcurrent, henvelope] at hmet
      exact hsame (Option.some.inj hmet)
    · intro client held signal announced hheld hequiv hannounced hfinished
      have hmet := version_of_event_finished hfinished
      have hne : bundle.version ≠ "" := by
        obtain ⟨_, matchers, _, heq⟩ := Control.compile_ok hcompile
        rw [heq]
        exact Control.sha256Text_ne_empty G _
      rw [hheld, Option.map_some, held_version hne hequiv, hannounced] at hmet
      exact hsame (Option.some.inj hmet)

namespace Orders

/-- The control plane with a canonicalizer that writes each whole number as its double. -/
def roundingPlatform : Control.GoPlatform :=
  { goPlatform with numberText := fun n => toString (Double.nearest n.num.toNat) }

theorem rfc8785 : Control.Rfc8785 roundingPlatform.numberText := by
  have htext : ∀ n : ℕ, roundingPlatform.numberText (n : Ecma.Number) =
      (Double.nearest n).repr := by
    intro n
    show toString (Double.nearest (n : Ecma.Number).num.toNat) = _
    rw [Rat.num_natCast, Int.toNat_natCast]
    rfl
  refine ⟨?_, ?_, ?_, ?_⟩
  · intro n _
    rw [htext, htext, Double.nearest_nearest]
  · intro n _
    rw [htext]
    exact Nat.repr_ne_empty
  · intro n _ c hc
    rw [htext, Nat.toList_repr] at hc
    exact Nat.isDigit_of_mem_toDigits (by decide) (by decide) hc
  · intro m n _ _ h
    rw [htext, htext] at h
    exact eq_of_repr_eq h

/-- The policy with another request count. -/
def documentOf (requests : ℤ) : Control.Document :=
  { document with
    spec :=
      { document.spec with
        routes := document.spec.routes.map fun route =>
          { route with rateLimit := route.rateLimit.map fun limit => { limit with requests } } } }

def bundleOf (requests : ℤ) : Control.Bundle :=
  { bundle with routes := (documentOf requests).spec.routes.map Control.cloneRoute }

instance (document : Control.Document) : Decidable document.FitsGoInt :=
  inferInstanceAs (Decidable (∀ route ∈ document.spec.routes, ∀ rateLimit ∈ route.rateLimit, _))

theorem evaluated_rounding :
    Control.compile roundingPlatform (documentOf (2 ^ 53)) = .ok (bundleOf (2 ^ 53)) ∧
      Control.compile roundingPlatform (documentOf (2 ^ 53 + 1)) = .ok (bundleOf (2 ^ 53 + 1)) ∧
      Control.compile roundingPlatform repeatedDocument = .ok repeated := by
  refine ⟨?_, ?_, ?_⟩ <;> decide +kernel

theorem compile_rounding_even :
    Control.compile roundingPlatform (documentOf (2 ^ 53)) = .ok (bundleOf (2 ^ 53)) :=
  evaluated_rounding.1

theorem compile_rounding_odd :
    Control.compile roundingPlatform (documentOf (2 ^ 53 + 1)) = .ok (bundleOf (2 ^ 53 + 1)) :=
  evaluated_rounding.2.1

theorem compile_rounding_repeated :
    Control.compile roundingPlatform repeatedDocument = .ok repeated :=
  evaluated_rounding.2.2

/-- The two counts are written alike. -/
theorem versionedContent_even_odd :
    Control.versionedContent roundingPlatform (bundleOf (2 ^ 53)) =
      Control.versionedContent roundingPlatform (bundleOf (2 ^ 53 + 1)) := by
  have hrounded : ({ bundleOf (2 ^ 53) with version := "" } : Control.Bundle).rounded =
      ({ bundleOf (2 ^ 53 + 1) with version := "" } : Control.Bundle).rounded := by
    decide +kernel
  have hrange : ∀ requests : ℤ, 0 < requests → requests < 2 ^ 63 →
      ({ bundleOf requests with version := "" } : Control.Bundle).InRange := by
    intro requests hpositive hupper route hroute rateLimit hlimit
    rw [List.mem_singleton.mp hroute] at hlimit
    rw [← Option.some.inj hlimit]
    exact ⟨hpositive, hupper⟩
  unfold Control.versionedContent Control.canonicalMarshal
  rw [← Control.Bundle.canonicalize_rounded rfc8785 (hrange _ (by norm_num) (by norm_num)),
    ← Control.Bundle.canonicalize_rounded rfc8785 (hrange (2 ^ 53 + 1) (by norm_num) (by norm_num)),
    hrounded]

end Orders

theorem content_address_iff_orders :
    ContentAddressed Orders.roundingPlatform (Orders.bundleOf (2 ^ 53)) Orders.repeated := by
  have hiff := content_address_iff Orders.roundingPlatform Orders.rfc8785
    (Orders.documentOf (2 ^ 53)) Orders.repeatedDocument (Orders.bundleOf (2 ^ 53)) Orders.repeated
    Orders.compile_rounding_even Orders.compile_rounding_repeated (by decide +kernel)
    (by decide +kernel) (by unfold Control.CollisionFree; decide +kernel)
  exact hiff.mpr (by decide +kernel)

/-- Two counts that are read as one double: two accepted policies, one version. -/
theorem content_address_fails :
    Control.Rfc8785 Orders.roundingPlatform.numberText ∧
      Control.compile Orders.roundingPlatform (Orders.documentOf (2 ^ 53)) =
        .ok (Orders.bundleOf (2 ^ 53)) ∧
      Control.compile Orders.roundingPlatform (Orders.documentOf (2 ^ 53 + 1)) =
        .ok (Orders.bundleOf (2 ^ 53 + 1)) ∧
      Control.CollisionFree Orders.roundingPlatform (Orders.bundleOf (2 ^ 53))
        (Orders.bundleOf (2 ^ 53 + 1)) ∧
      ¬ContentAddressed Orders.roundingPlatform (Orders.bundleOf (2 ^ 53))
        (Orders.bundleOf (2 ^ 53 + 1)) := by
  refine ⟨Orders.rfc8785, Orders.compile_rounding_even, Orders.compile_rounding_odd,
    fun _ => Orders.versionedContent_even_odd, ?_⟩
  intro h
  exact absurd (h.version rfl) (by decide +kernel)

end ShieldWard.Delivery

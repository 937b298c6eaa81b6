import ShieldWard.Lib.Regex.Backtrack

/-!
# Alternatives in groups of their own

The search for `^(?:(r₁)|…|(rₙ))$`, where no alternative has groups inside. The groups tell which
alternative took part in the match, and it is the first one that matches the whole text.
-/

namespace Regex

variable {σ α : Type*}

/-- A group around every expression, counted from `k` on. -/
def numbered (k : ℕ) : List (Expr σ) → List (Expr σ)
  | [] => []
  | r :: rs => .group k r :: numbered (k + 1) rs

/-- The whole text is matched by one of the alternatives. -/
def anchored (rs : List (Expr σ)) : Expr σ :=
  .seq (.anchor .start) (.seq (.altOf (numbered 1 rs)) (.anchor .finish))

variable {D : Dialect σ α} {E : Engine σ α} {text : List α}

/-! ## Sequences and repetitions -/

theorem matches_seqOf_cons {r : Expr σ} {rs : List (Expr σ)} {i j : ℕ} :
    Matches D text (.seqOf (r :: rs)) i j ↔
      ∃ k, Matches D text r i k ∧ Matches D text (.seqOf rs) k j := by
  cases rs with
  | nil => exact ⟨fun h => ⟨j, h, rfl⟩, fun ⟨k, h, heq⟩ => heq ▸ h⟩
  | cons s rs => exact Iff.rfl

/-- Iterating a leaf reads that many characters that it stands for. -/
theorem iterate_leaf_iff {s : σ} {n i j : ℕ} :
    Iterate (Matches D text (.leaf s)) n i j ↔
      ∃ part rest, text.drop i = part ++ rest ∧ part.length = n ∧
        (∀ c ∈ part, D.matchesLeaf s c = true) ∧ j = i + n := by
  induction n generalizing i with
  | zero =>
    constructor
    · rintro rfl
      exact ⟨[], text.drop i, rfl, rfl, by simp, rfl⟩
    · rintro ⟨_, _, _, _, _, rfl⟩
      rfl
  | succ n ih =>
    constructor
    · rintro ⟨_, ⟨⟨c, hc, hleaf⟩, rfl⟩, hrest⟩
      obtain ⟨part, rest, hdrop, hlength, hpart, rfl⟩ := ih.mp hrest
      obtain ⟨hi, rfl⟩ := List.getElem?_eq_some_iff.mp hc
      refine ⟨text[i] :: part, rest, ?_, by rw [List.length_cons, hlength],
        List.forall_mem_cons.mpr ⟨hleaf, hpart⟩, by omega⟩
      rw [List.drop_eq_getElem_cons hi, hdrop, List.cons_append]
    · rintro ⟨part, rest, hdrop, hlength, hpart, rfl⟩
      cases part with
      | nil => cases hlength
      | cons c part =>
        obtain ⟨hleaf, hpart⟩ := List.forall_mem_cons.mp hpart
        have hc : text[i]? = some c := by
          rw [← Nat.add_zero i, ← List.getElem?_drop, hdrop]
          rfl
        have hnext : text.drop (i + 1) = part ++ rest := by
          rw [← List.drop_drop, hdrop]
          rfl
        refine ⟨i + 1, ⟨⟨c, hc, hleaf⟩, rfl⟩, ih.mpr ⟨part, rest, hnext, ?_, hpart, by omega⟩⟩
        simpa using hlength

/-- A repeated leaf without an upper bound reads at least `min` characters that it stands for. -/
theorem matches_rep_leaf_iff {s : σ} {min i j : ℕ} {greedy : Bool} :
    Matches D text (.rep (.leaf s) min none greedy) i j ↔
      ∃ part rest, text.drop i = part ++ rest ∧ min ≤ part.length ∧
        (∀ c ∈ part, D.matchesLeaf s c = true) ∧ j = i + part.length := by
  constructor
  · rintro ⟨n, hmin, _, hiterate⟩
    obtain ⟨part, rest, hdrop, rfl, hpart, rfl⟩ := iterate_leaf_iff.mp hiterate
    exact ⟨part, rest, hdrop, hmin, hpart, rfl⟩
  · rintro ⟨part, rest, hdrop, hmin, hpart, rfl⟩
    exact ⟨part.length, hmin, by simp, iterate_leaf_iff.mpr ⟨part, rest, hdrop, rfl, hpart, rfl⟩⟩

/-! ## The search -/

theorem results_altOf {rs : List (Expr σ)} (hne : rs ≠ []) (x : State) :
    results E text (.altOf rs) x = rs.flatMap fun r => results E text r x := by
  induction rs with
  | nil => exact absurd rfl hne
  | cons r rs ih =>
    cases rs with
    | nil => simp [Expr.altOf]
    | cons s rs =>
      have hsplit : Expr.altOf (r :: s :: rs) = .alt r (.altOf (s :: rs)) := rfl
      rw [hsplit, results, ih (List.cons_ne_nil s rs)]
      rfl

/-- A search that begins with `^` is made at the first position only. -/
theorem exec_start (r : Expr σ) :
    exec E text (.seq (.anchor .start) r) = (results E text r ⟨0, fun _ => none⟩).head? := by
  have hfirst : results E text (.seq (.anchor .start) r) ⟨0, fun _ => none⟩ =
      results E text r ⟨0, fun _ => none⟩ := by
    simp [results, Anchor.holds]
  have hlater : ∀ i : ℕ, results E text (.seq (.anchor .start) r) ⟨i + 1, fun _ => none⟩ = [] := by
    intro i
    simp [results, Anchor.holds]
  have hnone : (List.map Nat.succ (List.range text.length)).findSome? (fun i =>
      (results E text (.seq (.anchor .start) r) ⟨i, fun _ => none⟩).head?) = none := by
    rw [List.findSome?_eq_none_iff]
    intro i hi
    obtain ⟨k, _, rfl⟩ := List.mem_map.mp hi
    rw [Nat.succ_eq_add_one, hlater]
    rfl
  rw [exec, List.range_succ_eq_map, List.findSome?_cons, hfirst, hnone]
  cases (results E text r ⟨0, fun _ => none⟩).head? <;> rfl

/-- What a group that reaches the end leaves behind. -/
theorem of_mem_results_whole {r : Expr σ} {k : ℕ} (hreg : r.Regular) (hb : r.Bounded)
    (hgroups : r.groups = []) {y : State}
    (hy : y ∈ results E text (.seq (.group k r) (.anchor .finish)) ⟨0, fun _ => none⟩) :
    Matches E.toDialect text r 0 text.length ∧
      y.caps = fun i => if i = k then some (0, text.length) else none := by
  obtain ⟨z, hz, hfinish⟩ := List.mem_flatMap.mp hy
  obtain ⟨w, hw, rfl⟩ := List.mem_map.mp hz
  rw [results] at hfinish
  split at hfinish
  · next hend =>
    rw [List.mem_singleton.mp hfinish]
    have hpos : w.pos = text.length := by simpa [Anchor.holds] using hend
    have hmatch := matches_of_mem_results r hreg hb hw
    have hcaps := caps_of_mem_results r hgroups hw
    refine ⟨hpos ▸ hmatch, ?_⟩
    funext i
    dsimp only
    rw [hcaps, hpos, Function.update_apply]
  · cases hfinish

theorem results_whole_ne_nil {r : Expr σ} (k : ℕ)
    (h : Matches E.toDialect text r 0 text.length) :
    results E text (.seq (.group k r) (.anchor .finish)) ⟨0, fun _ => none⟩ ≠ [] := by
  have hwhole : Matches E.toDialect text (.seq (.group k r) (.anchor .finish)) 0 text.length :=
    ⟨text.length, h, by simp [Anchor.holds], rfl⟩
  obtain ⟨y, hy, _⟩ :=
    exists_mem_results (E := E) (x := ⟨0, fun _ => none⟩) _ (Nat.zero_le _) hwhole
  exact List.ne_nil_of_mem hy

/-- The alternatives are tried one after the other, each up to the end of the text. -/
theorem exec_anchored_eq {rs : List (Expr σ)} (hne : rs ≠ []) :
    exec E text (anchored rs) = ((numbered 1 rs).flatMap fun g =>
      results E text (.seq g (.anchor .finish)) ⟨0, fun _ => none⟩).head? := by
  have hnumbered : numbered 1 rs ≠ [] := by
    cases rs with
    | nil => exact absurd rfl hne
    | cons r rs => exact List.cons_ne_nil _ _
  rw [anchored, exec_start, results, results_altOf hnumbered, List.flatMap_assoc]
  rfl

theorem numbered_append (k : ℕ) (rs ss : List (Expr σ)) :
    numbered k (rs ++ ss) = numbered k rs ++ numbered (k + rs.length) ss := by
  induction rs generalizing k with
  | nil => rfl
  | cons r rs ih =>
    rw [List.cons_append, numbered, ih, numbered, List.cons_append, List.length_cons]
    congr 3
    omega

/-- Alternatives that do not match the whole text leave nothing behind. -/
theorem flatMap_numbered_eq_nil {rs : List (Expr σ)}
    (hrs : ∀ r ∈ rs, r.Regular ∧ r.Bounded ∧ r.groups = [])
    (h : ∀ r ∈ rs, ¬Matches E.toDialect text r 0 text.length) (k : ℕ) :
    ((numbered k rs).flatMap fun g =>
      results E text (.seq g (.anchor .finish)) ⟨0, fun _ => none⟩) = [] := by
  induction rs generalizing k with
  | nil => rfl
  | cons r rs ih =>
    obtain ⟨⟨hreg, hb, hgroups⟩, hrs⟩ := List.forall_mem_cons.mp hrs
    obtain ⟨hr, hrest⟩ := List.forall_mem_cons.mp h
    rw [numbered, List.flatMap_cons, ih hrs hrest, List.append_nil]
    apply List.eq_nil_iff_forall_not_mem.mpr
    intro y hy
    exact hr (of_mem_results_whole hreg hb hgroups hy).1

/-- No match when no alternative matches the whole text. -/
theorem exec_anchored_eq_none {rs : List (Expr σ)} (hne : rs ≠ [])
    (hrs : ∀ r ∈ rs, r.Regular ∧ r.Bounded ∧ r.groups = [])
    (h : ∀ r ∈ rs, ¬Matches E.toDialect text r 0 text.length) :
    exec E text (anchored rs) = none := by
  rw [exec_anchored_eq hne, flatMap_numbered_eq_nil hrs h]
  rfl

/-- The first alternative that matches the whole text takes part in the match, and its group is
the only one that is defined. -/
theorem exec_anchored_eq_some {before after : List (Expr σ)} {r : Expr σ}
    (hrs : ∀ s ∈ before ++ r :: after, s.Regular ∧ s.Bounded ∧ s.groups = [])
    (hbefore : ∀ s ∈ before, ¬Matches E.toDialect text s 0 text.length)
    (hr : Matches E.toDialect text r 0 text.length) :
    ∃ y, exec E text (anchored (before ++ r :: after)) = some y ∧
      y.caps = fun i => if i = before.length + 1 then some (0, text.length) else none := by
  obtain ⟨hall, hrest⟩ := List.forall_mem_append.mp hrs
  obtain ⟨⟨hreg, hb, hgroups⟩, _⟩ := List.forall_mem_cons.mp hrest
  obtain ⟨y, ys, hy⟩ :=
    List.exists_cons_of_ne_nil (results_whole_ne_nil (E := E) (1 + before.length) hr)
  refine ⟨y, ?_, ?_⟩
  · rw [exec_anchored_eq (by simp), numbered_append, List.flatMap_append,
      flatMap_numbered_eq_nil hall hbefore, numbered, List.nil_append, List.flatMap_cons, hy]
    rfl
  · rw [Nat.add_comm]
    exact (of_mem_results_whole hreg hb hgroups (hy ▸ List.mem_cons_self)).2

end Regex

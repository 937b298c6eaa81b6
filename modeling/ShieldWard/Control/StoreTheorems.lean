import ShieldWard.Control.Store

/-!
# Latest-value publish and subscribe

What a subscriber was sent is its received versions followed by the version that waits in its
channel. It is always a subsequence of the publish order, and it ends in the current version
unless the running `Publish` has not come to the subscriber yet. Only the goroutine in the
critical section sends, so a channel that it has found empty or has drained stays empty until
its next send: the last select of `pushLatest` never takes its default branch.
-/

namespace ShieldWard.Control.Store

/-! ## Where the publisher stands -/

/-- The subscribers that the running `Publish` has not served yet. -/
def Holder.todo : Holder → List ℕ
  | .ranging _ remaining => remaining
  | .trySend _ id remaining => id :: remaining
  | .drain _ id remaining => id :: remaining
  | .sendAgain _ id remaining => id :: remaining
  | _ => []

/-- The subscriber whose `Subscribe` has not returned yet. -/
def Holder.entering : Holder → Option ℕ
  | .registered id => some id
  | .loaded id _ => some id
  | _ => none

/-- The holder is inside `Publish`. -/
def Holder.isPublish : Holder → Bool
  | .publishing .. | .ranging .. | .trySend .. | .drain .. | .sendAgain .. => true
  | _ => false

namespace State

def todo (s : State) : List ℕ := (s.lock.map Holder.todo).getD []

def entering (s : State) : Option ℕ := s.lock.bind Holder.entering

/-- The versions that a subscriber may have been sent. -/
def visible (s : State) (id : ℕ) : List String :=
  if id ∈ s.todo then s.published.dropLast else s.published

theorem visible_of_mem {s : State} {id : ℕ} (h : id ∈ s.todo) :
    s.visible id = s.published.dropLast := if_pos h

theorem visible_of_not_mem {s : State} {id : ℕ} (h : id ∉ s.todo) :
    s.visible id = s.published := if_neg h

end State

/-- The versions sent to a subscriber so far. -/
def Subscription.sent (sub : Subscription) : List String := sub.received ++ sub.updates.buffer

/-! ## The invariant -/

/-- A channel of capacity one that was sent a subsequence of the visible versions, up to the
last of them when it `must` be up to date. -/
structure Subscription.Tracks (sub : Subscription) (visible : List String) (must : Prop) :
    Prop where
  capacity : sub.updates.capacity = 1
  bounded : sub.updates.buffer.length ≤ 1
  ordered : sub.sent.Sublist (visible.drop sub.since)
  latest : must → ∀ version, visible.getLast? = some version → sub.sent.getLast? = some version

/-- A subscription that nothing was sent to. -/
structure Subscription.Untouched (sub : Subscription) (published : List String) : Prop where
  isOpen : sub.updates.closed = false
  sent : sub.sent = []
  since : sub.since = published.length - 1

/-- What holds where the goroutine in the critical section stands. -/
def HolderOk (s : State) : Holder → Prop
  | .publishing _ order => order.Perm s.subscribers
  | .ranging snapshot _ => s.published.getLast? = some snapshot.version
  | .trySend snapshot _ _ => s.published.getLast? = some snapshot.version
  | .drain snapshot _ _ => s.published.getLast? = some snapshot.version
  | .sendAgain snapshot id _ =>
    s.published.getLast? = some snapshot.version ∧
      ∀ sub, s.subscriptions id = some sub → sub.updates.buffer = []
  | .registered id => ∃ sub, s.subscriptions id = some sub ∧ sub.Untouched s.published
  | .loaded id version =>
    s.published.getLast? = some version ∧
      ∃ sub, s.subscriptions id = some sub ∧ sub.Untouched s.published
  | .canceling id => ∃ sub, s.subscriptions id = some sub
  | .closing id =>
    id ∉ s.subscribers ∧ ∃ sub, s.subscriptions id = some sub ∧ sub.updates.closed = false
  | .unlocking => True

structure Invariant (s : State) : Prop where
  fresh : ∀ id, s.nextSubscriberID ≤ id → s.subscriptions id = none
  nodup : s.subscribers.Nodup
  live : ∀ id ∈ s.subscribers, ∃ sub, s.subscriptions id = some sub ∧ sub.updates.closed = false
  current : s.current.map Snapshot.version = s.published.getLast?
  todoNodup : s.todo.Nodup
  todoLive : ∀ id ∈ s.todo, id ∈ s.subscribers
  tracks : ∀ id sub, s.subscriptions id = some sub →
    sub.Tracks (s.visible id) (id ∈ s.subscribers ∧ id ∉ s.todo ∧ s.entering ≠ some id)
  since : ∀ id sub, s.subscriptions id = some sub → sub.since ≤ s.published.length - 1
  holder : ∀ holder, s.lock = some holder → HolderOk s holder

theorem invariant_empty : Invariant empty where
  fresh _ _ := rfl
  nodup := List.nodup_nil
  live _ h := absurd h (by simp [empty])
  current := rfl
  todoNodup := List.nodup_nil
  todoLive _ h := absurd h (by simp [empty, State.todo])
  tracks _ _ h := by cases h
  since _ _ h := by cases h
  holder _ h := by cases h

/-! ## Changes that keep the invariant -/

/-- Moving the position without changing who is still to be served or entering. -/
theorem Invariant.move {s : State} (h : Invariant s) {lock : Option Holder}
    (htodo : (lock.map Holder.todo).getD [] = s.todo)
    (hentering : lock.bind Holder.entering = s.entering)
    (hholder : ∀ holder, lock = some holder → HolderOk { s with lock := lock } holder) :
    Invariant { s with lock := lock } := by
  have htodo' : { s with lock := lock }.todo = s.todo := htodo
  have hentering' : { s with lock := lock }.entering = s.entering := hentering
  have hvisible : ∀ id, { s with lock := lock }.visible id = s.visible id := by
    intro id
    unfold State.visible
    rw [htodo']
  exact {
    fresh := h.fresh
    nodup := h.nodup
    live := h.live
    current := h.current
    todoNodup := htodo' ▸ h.todoNodup
    todoLive := htodo' ▸ h.todoLive
    tracks := by
      intro id sub hsub
      rw [htodo', hentering', hvisible]
      exact h.tracks id sub hsub
    since := h.since
    holder := hholder }

/-- Changing one subscription, and the position with it. For the other subscribers the
position says what it said before. -/
theorem Invariant.change {s : State} (h : Invariant s) (id : ℕ) {sub : Subscription}
    (sub' : Subscription) (lock : Option Holder) {s' : State}
    (hs' : s' = { s with lock := lock,
                         subscriptions := Function.update s.subscriptions id (some sub') })
    (hsub : s.subscriptions id = some sub) (hsince : sub'.since = sub.since)
    (hopen : id ∈ s.subscribers → sub'.updates.closed = false)
    (htodo : s'.todo.Sublist s.todo)
    (hothers : ∀ j, j ≠ id →
      (j ∈ s'.todo ↔ j ∈ s.todo) ∧ (s'.entering = some j ↔ s.entering = some j))
    (htracks : sub'.Tracks (s'.visible id)
      (id ∈ s'.subscribers ∧ id ∉ s'.todo ∧ s'.entering ≠ some id))
    (hholder : ∀ holder, s'.lock = some holder → HolderOk s' holder) : Invariant s' := by
  have hsubscriptions : s'.subscriptions = Function.update s.subscriptions id (some sub') := by
    rw [hs']
  have hsubscribers : s'.subscribers = s.subscribers := by rw [hs']
  have hpublished : s'.published = s.published := by rw [hs']
  -- what the other subscribers may have seen stays the same
  have hvisible : ∀ j, j ≠ id → s'.visible j = s.visible j := by
    intro j hj
    unfold State.visible
    rw [hpublished]
    by_cases hmem : j ∈ s.todo
    · rw [if_pos hmem, if_pos ((hothers j hj).1.mpr hmem)]
    · rw [if_neg hmem, if_neg fun hmem' => hmem ((hothers j hj).1.mp hmem')]
  refine {
    fresh := ?_, nodup := hsubscribers ▸ h.nodup, live := ?_, current := ?_,
    todoNodup := h.todoNodup.sublist htodo, todoLive := ?_, tracks := ?_, since := ?_,
    holder := hholder }
  -- the changed subscription exists, so its ID is not fresh
  · intro j hj
    have hj' : s.nextSubscriberID ≤ j := by rwa [hs'] at hj
    have hne : j ≠ id := by
      intro heq
      have hnone := h.fresh j hj'
      rw [heq, hsub] at hnone
      cases hnone
    rw [hsubscriptions, Function.update_of_ne hne]
    exact h.fresh j hj'
  · intro j hj
    rw [hsubscribers] at hj
    rw [hsubscriptions]
    by_cases hne : j = id
    · rw [hne, Function.update_self]
      exact ⟨sub', rfl, hopen (hne ▸ hj)⟩
    · rw [Function.update_of_ne hne]
      exact h.live j hj
  · rw [hs']
    exact h.current
  · intro j hj
    rw [hsubscribers]
    exact h.todoLive j (htodo.subset hj)
  · intro j subj hj
    rw [hsubscriptions] at hj
    by_cases hne : j = id
    · rw [hne, Function.update_self] at hj
      have hsame : sub' = subj := Option.some.inj hj
      rw [← hsame, hne]
      exact htracks
    · rw [Function.update_of_ne hne] at hj
      have hold := h.tracks j subj hj
      rw [hvisible j hne, hsubscribers, (hothers j hne).1]
      have hent : (s'.entering ≠ some j) = (s.entering ≠ some j) := by
        rw [ne_eq, ne_eq, (hothers j hne).2]
      rw [hent]
      exact hold
  · intro j subj hj
    rw [hsubscriptions] at hj
    rw [hpublished]
    by_cases hne : j = id
    · rw [hne, Function.update_self] at hj
      have hsame : sub' = subj := Option.some.inj hj
      rw [← hsame, hsince]
      exact h.since id sub hsub
    · rw [Function.update_of_ne hne] at hj
      exact h.since j subj hj

/-- What a subscriber was sent is not changed by a receive. -/
theorem sent_receive {sub : Subscription} {version : String} {updates : Channel String}
    (h : sub.updates.receive = .received version updates) :
    { sub with updates, received := sub.received ++ [version] }.sent = sub.sent ∧
      updates.capacity = sub.updates.capacity ∧ updates.closed = sub.updates.closed ∧
      sub.updates.buffer = version :: updates.buffer := by
  unfold Channel.receive at h
  split at h
  · next value rest hbuffer =>
    injection h with hvalue hupdates
    subst hvalue hupdates
    refine ⟨?_, rfl, rfl, hbuffer⟩
    simp [Subscription.sent, hbuffer]
  · split at h <;> cases h

/-! ## Sending -/

/-- Sending the current version to a subscriber that was sent only versions before it. -/
theorem Subscription.Tracks.send {sub : Subscription} {published : List String} {version : String}
    {must must' : Prop} (h : sub.Tracks published.dropLast must)
    (hlast : published.getLast? = some version) (hsince : sub.since ≤ published.length - 1)
    (hempty : sub.updates.buffer = []) :
    { sub with updates := { sub.updates with buffer := [version] } }.Tracks published must' := by
  have hsplit : published = published.dropLast ++ [version] := by
    have hne : published ≠ [] := by
      intro hnil
      rw [hnil] at hlast
      cases hlast
    rw [List.getLast?_eq_some_getLast hne] at hlast
    rw [← Option.some.inj hlast, List.dropLast_append_getLast hne]
  have hsent : { sub with updates := { sub.updates with buffer := [version] } }.sent =
      sub.sent ++ [version] := by
    simp [Subscription.sent, hempty]
  refine ⟨h.capacity, by simp, ?_, fun _ v hv => ?_⟩
  · -- the current version comes after every version that was visible before
    have hdrop : published.drop sub.since = published.dropLast.drop sub.since ++ [version] := by
      have hlength : sub.since - published.dropLast.length = 0 := by
        rw [List.length_dropLast]
        omega
      conv_lhs => rw [hsplit]
      rw [List.drop_append, hlength]
      rfl
    rw [hsent, hdrop]
    exact h.ordered.append_right [version]
  · rw [hsent, List.getLast?_concat]
    rw [hlast] at hv
    exact hv

/-- A subscriber keeps what it was sent when a later version is published. -/
theorem Subscription.Tracks.publish {sub : Subscription} {published : List String}
    {version : String} {must must' : Prop} (h : sub.Tracks published must) (hmust' : ¬ must') :
    sub.Tracks (published ++ [version]) must' where
  capacity := h.capacity
  bounded := h.bounded
  ordered := by
    rw [List.drop_append]
    exact h.ordered.trans (List.sublist_append_left _ _)
  latest hm := absurd hm hmust'

/-! ## The statements of the critical sections -/

theorem todo_of_lock {s : State} {holder : Holder} (h : s.lock = some holder) :
    s.todo = holder.todo := by
  unfold State.todo
  rw [h]
  rfl

theorem entering_of_lock {s : State} {holder : Holder} (h : s.lock = some holder) :
    s.entering = holder.entering := by
  unfold State.entering
  rw [h]
  rfl

theorem todo_of_unlocked {s : State} (h : s.lock = none) : s.todo = [] := by
  unfold State.todo
  rw [h]
  rfl

theorem entering_of_unlocked {s : State} (h : s.lock = none) : s.entering = none := by
  unfold State.entering
  rw [h]
  rfl

/-- Moving on inside the critical section. -/
theorem Invariant.setHolder {s : State} (h : Invariant s) {holder holder' : Holder}
    (hlock : s.lock = some holder) (htodo : holder'.todo = holder.todo)
    (hentering : holder'.entering = holder.entering)
    (hholder : HolderOk (s.setHolder holder') holder') : Invariant (s.setHolder holder') := by
  apply h.move
  · rw [todo_of_lock hlock]
    exact htodo
  · rw [entering_of_lock hlock]
    exact hentering
  · intro holder'' heq
    rw [← Option.some.inj heq]
    exact hholder

theorem statement_publishing {s : State} (h : Invariant s) {snapshot : Snapshot}
    {order : List ℕ} (hlock : s.lock = some (.publishing snapshot order)) :
    ∃ s', statement s (.publishing snapshot order) = .next s' ∧ Invariant s' := by
  have hperm : order.Perm s.subscribers := h.holder _ hlock
  have htodo : s.todo = [] := todo_of_lock hlock
  refine ⟨_, rfl, ?_⟩
  exact {
    fresh := h.fresh
    nodup := h.nodup
    live := h.live
    current := by simp
    todoNodup := hperm.nodup_iff.mpr h.nodup
    todoLive := fun id hid => hperm.mem_iff.mp hid
    tracks := by
      intro id sub hsub
      have hold := h.tracks id sub hsub
      rw [State.visible_of_not_mem (by rw [htodo]; exact List.not_mem_nil)] at hold
      -- the subscribers are exactly those that the loop is about to serve
      by_cases hid : id ∈ order
      · rw [State.visible_of_mem (by exact hid), List.dropLast_concat]
        exact ⟨hold.capacity, hold.bounded, hold.ordered, fun hm => absurd hid hm.2.1⟩
      · rw [State.visible_of_not_mem (by exact hid)]
        exact hold.publish fun hm => hid (hperm.mem_iff.mpr hm.1)
    since := by
      intro id sub hsub
      have hold := h.since id sub hsub
      show sub.since ≤ (s.published ++ [snapshot.version]).length - 1
      rw [List.length_append, List.length_singleton]
      omega
    holder := by
      intro holder heq
      rw [← Option.some.inj heq]
      exact List.getLast?_concat }

/-- A send of the current version to the subscriber that is being served. -/
theorem Invariant.served {s : State} (h : Invariant s) {snapshot : Snapshot} {id : ℕ}
    {remaining : List ℕ} {holder : Holder} (hlock : s.lock = some holder)
    (htodo : holder.todo = id :: remaining) (hentering : holder.entering = none)
    (hlast : s.published.getLast? = some snapshot.version) {sub : Subscription}
    (hsub : s.subscriptions id = some sub) (hempty : sub.updates.buffer = []) :
    Invariant ((s.setChannel id sub { sub.updates with buffer := [snapshot.version] }).setHolder
      (.ranging snapshot remaining)) := by
  have hold := h.tracks id sub hsub
  have htodos : s.todo = id :: remaining := (todo_of_lock hlock).trans htodo
  have hentering' : s.entering = none := (entering_of_lock hlock).trans hentering
  have hnot : id ∉ remaining := (List.nodup_cons.mp (htodos ▸ h.todoNodup)).1
  rw [State.visible_of_mem (by rw [htodos]; exact List.mem_cons_self)] at hold
  apply h.change id { sub with updates := { sub.updates with buffer := [snapshot.version] } }
    (some (.ranging snapshot remaining)) rfl hsub rfl
  · intro hid
    have ⟨sub', hsub', hopen⟩ := h.live id hid
    rw [hsub] at hsub'
    rw [Option.some.inj hsub']
    exact hopen
  · rw [htodos]
    exact List.sublist_cons_self id remaining
  · intro j hj
    rw [htodos, hentering', List.mem_cons]
    refine ⟨⟨.inr, fun hmem => hmem.resolve_left hj⟩, Iff.rfl⟩
  · rw [State.visible_of_not_mem (by exact hnot)]
    exact hold.send hlast (h.since id sub hsub) hempty
  · intro holder' heq
    rw [← Option.some.inj heq]
    exact hlast

theorem Invariant.todo_live {s : State} (h : Invariant s) {id : ℕ} (hid : id ∈ s.todo) :
    ∃ sub, s.subscriptions id = some sub ∧ sub.updates.closed = false ∧
      sub.updates.capacity = 1 ∧ sub.updates.buffer.length ≤ 1 := by
  have ⟨sub, hsub, hopen⟩ := h.live id (h.todoLive id hid)
  have htracks := h.tracks id sub hsub
  exact ⟨sub, hsub, hopen, htracks.capacity, htracks.bounded⟩

theorem statement_trySend {s : State} (h : Invariant s) {snapshot : Snapshot} {id : ℕ}
    {remaining : List ℕ} (hlock : s.lock = some (.trySend snapshot id remaining)) :
    ∃ s', statement s (.trySend snapshot id remaining) = .next s' ∧ Invariant s' := by
  have hlast : s.published.getLast? = some snapshot.version := h.holder _ hlock
  have hid : id ∈ s.todo := by
    rw [todo_of_lock hlock]
    exact List.mem_cons_self
  have ⟨sub, hsub, hopen, hcapacity, hbounded⟩ := h.todo_live hid
  rcases Channel.send_cases snapshot.version hopen with ⟨hsent, hroom⟩ | ⟨hblocked, _⟩
  · have hempty : sub.updates.buffer = [] := List.length_eq_zero_iff.mp (by omega)
    rw [hempty] at hsent
    refine ⟨_, ?_, h.served hlock rfl rfl hlast hsub hempty⟩
    simp only [statement, selectSend, hsub, hsent, List.nil_append]
  · refine ⟨s.setHolder (.drain snapshot id remaining), ?_, h.setHolder hlock rfl rfl hlast⟩
    simp only [statement, selectSend, hsub, hblocked]

theorem statement_drain {s : State} (h : Invariant s) {snapshot : Snapshot} {id : ℕ}
    {remaining : List ℕ} (hlock : s.lock = some (.drain snapshot id remaining)) :
    ∃ s', statement s (.drain snapshot id remaining) = .next s' ∧ Invariant s' := by
  have hlast : s.published.getLast? = some snapshot.version := h.holder _ hlock
  have htodos : s.todo = id :: remaining := todo_of_lock hlock
  have hid : id ∈ s.todo := by
    rw [htodos]
    exact List.mem_cons_self
  have ⟨sub, hsub, hopen, _, hbounded⟩ := h.todo_live hid
  -- nothing to drain: the position moves on with the channel as it is
  have hempty : sub.updates.buffer = [] →
      Invariant (s.setHolder (.sendAgain snapshot id remaining)) := by
    intro hbuffer
    refine h.setHolder hlock rfl rfl ⟨hlast, fun sub' hsub' => ?_⟩
    have heq : sub = sub' := Option.some.inj (hsub.symm.trans hsub')
    rw [← heq]
    exact hbuffer
  cases hreceive : sub.updates.receive with
  | received version updates =>
    have ⟨hsent, hcap, hclosed, hbuffer⟩ := sent_receive hreceive
    -- the buffer holds one version at most, so draining empties it
    have hnil : updates.buffer = [] := by
      rw [hbuffer, List.length_cons] at hbounded
      exact List.length_eq_zero_iff.mp (by omega)
    refine ⟨(s.setChannel id sub updates).setHolder (.sendAgain snapshot id remaining), ?_, ?_⟩
    · simp only [statement, hsub, hreceive]
    · have hold := h.tracks id sub hsub
      apply h.change id { sub with updates } (some (.sendAgain snapshot id remaining)) rfl hsub rfl
      · exact fun _ => hclosed.trans hopen
      · rw [htodos]
        exact List.Sublist.refl _
      · intro j _
        rw [htodos, entering_of_lock hlock]
        exact ⟨Iff.rfl, Iff.rfl⟩
      · rw [State.visible_of_mem hid] at hold
        rw [State.visible_of_mem (by exact List.mem_cons_self)]
        refine ⟨hcap.trans hold.capacity, by simp [hnil], ?_, fun hm => ?_⟩
        · -- what is drained was sent but never received
          refine List.Sublist.trans ?_ hold.ordered
          simp only [Subscription.sent, hnil, List.append_nil]
          exact List.sublist_append_left _ _
        · exact absurd List.mem_cons_self hm.2.1
      · intro holder heq
        rw [← Option.some.inj heq]
        refine ⟨hlast, fun sub' hsub' => ?_⟩
        have heq : { sub with updates } = sub' := by
          have hupdate : Function.update s.subscriptions id (some { sub with updates }) id =
            some sub' := hsub'
          rw [Function.update_self] at hupdate
          exact Option.some.inj hupdate
        rw [← heq]
        exact hnil
  | ended =>
    refine ⟨s.setHolder (.sendAgain snapshot id remaining), ?_, hempty ?_⟩
    · simp only [statement, hsub, hreceive]
    · unfold Channel.receive at hreceive
      split at hreceive
      · cases hreceive
      · assumption
  | blocked =>
    refine ⟨s.setHolder (.sendAgain snapshot id remaining), ?_, hempty ?_⟩
    · simp only [statement, hsub, hreceive]
    · unfold Channel.receive at hreceive
      split at hreceive
      · cases hreceive
      · assumption

theorem statement_sendAgain {s : State} (h : Invariant s) {snapshot : Snapshot} {id : ℕ}
    {remaining : List ℕ} (hlock : s.lock = some (.sendAgain snapshot id remaining)) :
    ∃ s', statement s (.sendAgain snapshot id remaining) = .next s' ∧ Invariant s' := by
  have ⟨hlast, hnil⟩ : s.published.getLast? = some snapshot.version ∧
      ∀ sub, s.subscriptions id = some sub → sub.updates.buffer = [] := h.holder _ hlock
  have hid : id ∈ s.todo := by
    rw [todo_of_lock hlock]
    exact List.mem_cons_self
  have ⟨sub, hsub, hopen, hcapacity, _⟩ := h.todo_live hid
  have hempty := hnil sub hsub
  have hsent := (Channel.send_of_empty hopen (by omega) hempty : sub.updates.send snapshot.version = _)
  refine ⟨_, ?_, h.served hlock rfl rfl hlast hsub hempty⟩
  simp only [statement, selectSend, hsub, hsent]

/-- The subscription of a running `Subscribe` has nothing to catch up with once it holds the
current version, or when nothing is published. -/
theorem statement_registered {s : State} (h : Invariant s) {id : ℕ}
    (hlock : s.lock = some (.registered id)) :
    ∃ s', statement s (.registered id) = .next s' ∧ Invariant s' := by
  have ⟨sub, hsub, huntouched⟩ :
    ∃ sub, s.subscriptions id = some sub ∧ sub.Untouched s.published := h.holder _ hlock
  have htodos : s.todo = [] := todo_of_lock hlock
  cases hcurrent : s.current with
  | some snapshot =>
    refine ⟨s.setHolder (.loaded id snapshot.version), ?_, ?_⟩
    · simp only [statement, hcurrent]
    · have hloaded : HolderOk (s.setHolder (.loaded id snapshot.version))
          (.loaded id snapshot.version) → Invariant _ := h.setHolder hlock rfl rfl
      refine hloaded ⟨?_, sub, hsub, huntouched⟩
      have hpublished := h.current
      rw [hcurrent] at hpublished
      exact hpublished.symm
  | none =>
    refine ⟨s.setHolder .unlocking, ?_, ?_⟩
    · simp only [statement, hcurrent]
    -- nothing has been published, so there is no version to miss
    · have hold := h.tracks id sub hsub
      have hempty : s.published.getLast? = none := by
        have hpublished := h.current
        rw [hcurrent] at hpublished
        exact hpublished.symm
      have hsame : s.setHolder .unlocking = { s with
          lock := some .unlocking,
          subscriptions := Function.update s.subscriptions id (some sub) } := by
        rw [← hsub, Function.update_eq_self]
        rfl
      apply h.change id sub (some .unlocking) hsame hsub rfl
      · exact fun _ => huntouched.isOpen
      · exact List.nil_sublist _
      · intro j hj
        rw [htodos, entering_of_lock hlock]
        refine ⟨Iff.rfl, fun heq => ?_, fun heq => ?_⟩
        · cases heq
        · exact absurd (Option.some.inj heq).symm hj
      · rw [State.visible_of_not_mem (by rw [htodos]; exact List.not_mem_nil)] at hold
        rw [State.visible_of_not_mem (by exact List.not_mem_nil)]
        refine ⟨hold.capacity, hold.bounded, hold.ordered, fun _ version hversion => ?_⟩
        have hsome : s.published.getLast? = some version := hversion
        rw [hempty] at hsome
        cases hsome
      · intro holder heq
        rw [← Option.some.inj heq]
        trivial

theorem statement_loaded {s : State} (h : Invariant s) {id : ℕ} {version : String}
    (hlock : s.lock = some (.loaded id version)) :
    ∃ s', statement s (.loaded id version) = .next s' ∧ Invariant s' := by
  have ⟨hlast, sub, hsub, huntouched⟩ : s.published.getLast? = some version ∧
    ∃ sub, s.subscriptions id = some sub ∧ sub.Untouched s.published := h.holder _ hlock
  have hold := h.tracks id sub hsub
  have htodos : s.todo = [] := todo_of_lock hlock
  have hempty : sub.updates.buffer = [] := (List.append_eq_nil_iff.mp huntouched.sent).2
  have hpositive : 0 < sub.updates.capacity := by
    rw [hold.capacity]
    omega
  have hsend : sub.updates.send version = .sent { sub.updates with buffer := [version] } :=
    Channel.send_of_empty huntouched.isOpen hpositive hempty
  refine ⟨(s.setChannel id sub { sub.updates with buffer := [version] }).setHolder .unlocking,
    ?_, ?_⟩
  · simp only [statement, hsub, hsend]
  · apply h.change id { sub with updates := { sub.updates with buffer := [version] } }
      (some .unlocking) rfl hsub rfl
    · exact fun _ => huntouched.isOpen
    · exact List.nil_sublist _
    · intro j hj
      rw [htodos, entering_of_lock hlock]
      refine ⟨Iff.rfl, fun heq => ?_, fun heq => ?_⟩
      · cases heq
      · exact absurd (Option.some.inj heq).symm hj
    · rw [State.visible_of_not_mem (by exact List.not_mem_nil)]
      -- nothing was sent yet, so the versions before the current one are out of reach
      have hbefore : sub.Tracks s.published.dropLast False :=
        ⟨hold.capacity, hold.bounded, by rw [huntouched.sent]; exact List.nil_sublist _, nofun⟩
      exact hbefore.send hlast (h.since id sub hsub) hempty
    · intro holder heq
      rw [← Option.some.inj heq]
      trivial

theorem statement_canceling {s : State} (h : Invariant s) {id : ℕ}
    (hlock : s.lock = some (.canceling id)) :
    ∃ s', statement s (.canceling id) = .next s' ∧ Invariant s' := by
  have htodos : s.todo = [] := todo_of_lock hlock
  by_cases hid : id ∈ s.subscribers
  · refine ⟨{ s with subscribers := s.subscribers.filter (· ≠ id), lock := some (.closing id) },
      ?_, ?_⟩
    · simp only [statement, if_pos hid]
    · have hsubset : ∀ j, j ∈ s.subscribers.filter (· ≠ id) → j ∈ s.subscribers :=
        fun j hj => List.mem_of_mem_filter hj
      exact {
        fresh := h.fresh
        nodup := h.nodup.filter _
        live := fun j hj => h.live j (hsubset j hj)
        current := h.current
        todoNodup := List.nodup_nil
        todoLive := fun j hj => absurd hj List.not_mem_nil
        tracks := by
          intro j sub hsub
          have hold := h.tracks j sub hsub
          rw [State.visible_of_not_mem (by rw [htodos]; exact List.not_mem_nil)] at hold
          rw [State.visible_of_not_mem (by exact List.not_mem_nil)]
          refine ⟨hold.capacity, hold.bounded, hold.ordered, fun hm => hold.latest ?_⟩
          rw [htodos, entering_of_lock hlock]
          exact ⟨hsubset j hm.1, List.not_mem_nil, nofun⟩
        since := h.since
        holder := by
          intro holder heq
          rw [← Option.some.inj heq]
          exact ⟨fun hmem => by simpa using List.of_mem_filter hmem, h.live id hid⟩ }
  · refine ⟨s.setHolder .unlocking, ?_, h.setHolder hlock rfl rfl trivial⟩
    simp only [statement, if_neg hid]

theorem statement_closing {s : State} (h : Invariant s) {id : ℕ}
    (hlock : s.lock = some (.closing id)) :
    ∃ s', statement s (.closing id) = .next s' ∧ Invariant s' := by
  have ⟨hnot, sub, hsub, hopen⟩ : id ∉ s.subscribers ∧
    ∃ sub, s.subscriptions id = some sub ∧ sub.updates.closed = false := h.holder _ hlock
  have hold := h.tracks id sub hsub
  have htodos : s.todo = [] := todo_of_lock hlock
  have hclose : sub.updates.close = some { sub.updates with closed := true } := by
    unfold Channel.close
    rw [hopen]
    rfl
  refine ⟨(s.setChannel id sub { sub.updates with closed := true }).setHolder .unlocking, ?_, ?_⟩
  · simp only [statement, hsub, hclose]
  · apply h.change id { sub with updates := { sub.updates with closed := true } }
      (some .unlocking) rfl hsub rfl
    · exact fun hid => absurd hid hnot
    · exact List.nil_sublist _
    · intro j _
      rw [htodos, entering_of_lock hlock]
      exact ⟨Iff.rfl, Iff.rfl⟩
    · rw [State.visible_of_not_mem (by rw [htodos]; exact List.not_mem_nil)] at hold
      rw [State.visible_of_not_mem (by exact List.not_mem_nil)]
      exact ⟨hold.capacity, hold.bounded, hold.ordered, fun hm => absurd hm.1 hnot⟩
    · intro holder heq
      rw [← Option.some.inj heq]
      trivial

/-- The next statement in the critical section neither waits nor panics, and keeps the
invariant. -/
theorem statement_ok {s : State} (h : Invariant s) {holder : Holder}
    (hlock : s.lock = some holder) :
    ∃ s', statement s holder = .next s' ∧ Invariant s' := by
  cases holder with
  | publishing snapshot order => exact statement_publishing h hlock
  | ranging snapshot remaining =>
    have hlast : s.published.getLast? = some snapshot.version := h.holder _ hlock
    cases remaining with
    | nil => exact ⟨_, rfl, h.setHolder hlock rfl rfl trivial⟩
    | cons id remaining => exact ⟨_, rfl, h.setHolder hlock rfl rfl hlast⟩
  | trySend snapshot id remaining => exact statement_trySend h hlock
  | drain snapshot id remaining => exact statement_drain h hlock
  | sendAgain snapshot id remaining => exact statement_sendAgain h hlock
  | registered id => exact statement_registered h hlock
  | loaded id version => exact statement_loaded h hlock
  | canceling id => exact statement_canceling h hlock
  | closing id => exact statement_closing h hlock
  | unlocking =>
    refine ⟨_, rfl, h.move ?_ ?_ nofun⟩
    · rw [todo_of_lock hlock]
      rfl
    · rw [entering_of_lock hlock]
      rfl

/-! ## Calls and receives -/

theorem Invariant.publish {s : State} (h : Invariant s) (hlock : s.lock = none)
    {snapshot : Snapshot} {order : List ℕ} (hperm : order.Perm s.subscribers) :
    Invariant (s.setHolder (.publishing snapshot order)) := by
  apply h.move
  · rw [todo_of_unlocked hlock]
    rfl
  · rw [entering_of_unlocked hlock]
    rfl
  · intro holder heq
    rw [← Option.some.inj heq]
    exact hperm

theorem Invariant.subscribe {s s' : State} (h : Invariant s) {G : GoPlatform}
    (hstep : step G s .subscribe = some s') : Invariant s' := by
  simp only [step] at hstep
  split at hstep
  · next hnone =>
    have hlock : s.lock = none := Option.isNone_iff_eq_none.mp hnone
    have htodos := todo_of_unlocked hlock
    let sub : Subscription :=
      { updates := .make 1, canceled := false, received := [], since := s.published.length - 1 }
    have hs' := (Option.some.inj hstep).symm
    have hsubscriptions : s'.subscriptions =
        Function.update s.subscriptions s.nextSubscriberID (some sub) := by rw [hs']
    have hfresh := h.fresh s.nextSubscriberID (Nat.le_refl _)
    -- no subscription has the new ID yet
    have hne : ∀ j, (∃ subj, s.subscriptions j = some subj) → j ≠ s.nextSubscriberID := by
      intro j hj heq
      rcases hj with ⟨subj, hj⟩
      rw [heq, hfresh] at hj
      cases hj
    rw [hs']
    exact {
      fresh := by
        intro j hj
        have hle : s.nextSubscriberID + 1 ≤ j := hj
        show Function.update s.subscriptions s.nextSubscriberID _ j = none
        rw [Function.update_of_ne (by omega)]
        exact h.fresh j (by omega)
      nodup := by
        rw [List.nodup_append]
        refine ⟨h.nodup, List.nodup_singleton _, fun a ha b hb heq => ?_⟩
        have ⟨subj, hj, _⟩ := h.live a ha
        exact hne a ⟨subj, hj⟩ (heq.trans (List.mem_singleton.mp hb))
      live := by
        intro j hj
        show ∃ subj, Function.update s.subscriptions s.nextSubscriberID _ j = some subj ∧ _
        rcases List.mem_append.mp hj with hj | hj
        · have ⟨subj, hsubj, hopen⟩ := h.live j hj
          rw [Function.update_of_ne (hne j ⟨subj, hsubj⟩)]
          exact ⟨subj, hsubj, hopen⟩
        · rw [List.mem_singleton.mp hj, Function.update_self]
          exact ⟨sub, rfl, rfl⟩
      current := h.current
      todoNodup := List.nodup_nil
      todoLive := fun j hj => absurd hj List.not_mem_nil
      tracks := by
        intro j subj hsubj
        have hsubj' : Function.update s.subscriptions s.nextSubscriberID (some sub) j =
          some subj := hsubj
        rw [State.visible_of_not_mem (by exact List.not_mem_nil)]
        by_cases hj : j = s.nextSubscriberID
        -- the new channel is empty, and its subscriber has seen nothing so far
        · rw [hj, Function.update_self] at hsubj'
          rw [← Option.some.inj hsubj', hj]
          exact ⟨rfl, by simp [sub, Channel.make], List.nil_sublist _, fun hm => absurd rfl hm.2.2⟩
        · rw [Function.update_of_ne hj] at hsubj'
          have hold := h.tracks j subj hsubj'
          rw [State.visible_of_not_mem (by rw [htodos]; exact List.not_mem_nil)] at hold
          refine ⟨hold.capacity, hold.bounded, hold.ordered, fun hm => hold.latest ?_⟩
          rw [htodos, entering_of_unlocked hlock]
          refine ⟨?_, List.not_mem_nil, nofun⟩
          exact (List.mem_append.mp hm.1).resolve_right fun hmem => hj (List.mem_singleton.mp hmem)
      since := by
        intro j subj hsubj
        have hsubj' : Function.update s.subscriptions s.nextSubscriberID (some sub) j =
          some subj := hsubj
        by_cases hj : j = s.nextSubscriberID
        · rw [hj, Function.update_self] at hsubj'
          rw [← Option.some.inj hsubj']
        · rw [Function.update_of_ne hj] at hsubj'
          exact h.since j subj hsubj'
      holder := by
        intro holder heq
        rw [← Option.some.inj heq]
        refine ⟨sub, ?_, rfl, rfl, rfl⟩
        show Function.update s.subscriptions s.nextSubscriberID (some sub) s.nextSubscriberID = _
        exact Function.update_self _ _ _ }
  · cases hstep

/-- What the position asks of a subscription is not touched by a receive from it. -/
theorem HolderOk.keep {s : State} {holder : Holder} (h : HolderOk s holder) {id : ℕ}
    {sub : Subscription} (sub' : Subscription) (lock : Option Holder) (hsub : s.subscriptions id = some sub)
    (hclosed : sub'.updates.closed = sub.updates.closed) (hsince : sub'.since = sub.since)
    (hsent : sub'.sent = sub.sent)
    (hbuffer : sub.updates.buffer = [] → sub'.updates.buffer = []) :
    HolderOk { s with
      lock := lock
      subscriptions := Function.update s.subscriptions id (some sub') } holder := by
  -- a subscription that nothing was sent to is still one
  have hentry : ∀ j, (∃ subj, s.subscriptions j = some subj ∧ subj.Untouched s.published) →
      ∃ subj, Function.update s.subscriptions id (some sub') j = some subj ∧
        subj.Untouched s.published := by
    intro j hj
    have ⟨subj, hsubj, huntouched⟩ := hj
    by_cases heq : j = id
    · rw [heq, Function.update_self]
      have hsame : sub = subj := Option.some.inj (hsub.symm.trans (heq ▸ hsubj))
      rw [← hsame] at huntouched
      exact ⟨sub', rfl, hclosed.trans huntouched.isOpen, hsent.trans huntouched.sent,
        hsince.trans huntouched.since⟩
    · rw [Function.update_of_ne heq]
      exact ⟨subj, hsubj, huntouched⟩
  cases holder with
  | publishing => exact h
  | ranging => exact h
  | trySend => exact h
  | drain => exact h
  | sendAgain snapshot j remaining =>
    refine ⟨h.1, fun subj hsubj => ?_⟩
    have hsubj' : Function.update s.subscriptions id (some sub') j = some subj := hsubj
    by_cases heq : j = id
    · rw [heq, Function.update_self] at hsubj'
      rw [← Option.some.inj hsubj']
      exact hbuffer (h.2 sub (heq ▸ hsub))
    · rw [Function.update_of_ne heq] at hsubj'
      exact h.2 subj hsubj'
  | registered j => exact hentry j h
  | loaded j version => exact ⟨h.1, hentry j h.2⟩
  | canceling j =>
    have ⟨subj, hsubj⟩ : ∃ subj, s.subscriptions j = some subj := h
    show ∃ subj, Function.update s.subscriptions id (some sub') j = some subj
    by_cases heq : j = id
    · rw [heq, Function.update_self]
      exact ⟨sub', rfl⟩
    · rw [Function.update_of_ne heq]
      exact ⟨subj, hsubj⟩
  | closing j =>
    have ⟨hnot, subj, hsubj, hopen⟩ : j ∉ s.subscribers ∧
      ∃ subj, s.subscriptions j = some subj ∧ subj.updates.closed = false := h
    refine ⟨hnot, ?_⟩
    show ∃ subj, Function.update s.subscriptions id (some sub') j = some subj ∧ _
    by_cases heq : j = id
    · rw [heq, Function.update_self]
      have hsame : sub = subj := Option.some.inj (hsub.symm.trans (heq ▸ hsubj))
      exact ⟨sub', rfl, hclosed.trans (hsame ▸ hopen)⟩
    · rw [Function.update_of_ne heq]
      exact ⟨subj, hsubj, hopen⟩
  | unlocking => trivial

theorem Invariant.receive {s : State} (h : Invariant s) {id : ℕ} {sub : Subscription}
    (hsub : s.subscriptions id = some sub) {version : String} {updates : Channel String}
    (hreceive : sub.updates.receive = .received version updates) :
    Invariant { s with
      subscriptions := Function.update s.subscriptions id
        (some { sub with updates, received := sub.received ++ [version] }) } := by
  have ⟨hsent, hcap, hclosed, hbuffer⟩ := sent_receive hreceive
  have hold := h.tracks id sub hsub
  apply h.change id { sub with updates, received := sub.received ++ [version] } s.lock rfl hsub rfl
  · intro hid
    have ⟨sub', hsub', hopen⟩ := h.live id hid
    have hsame : sub = sub' := Option.some.inj (hsub.symm.trans hsub')
    exact hclosed.trans (hsame ▸ hopen)
  · exact List.Sublist.refl _
  · exact fun j _ => ⟨Iff.rfl, Iff.rfl⟩
  · refine ⟨hcap.trans hold.capacity, ?_, ?_, fun hm => ?_⟩
    · have hbounded := hold.bounded
      rw [hbuffer, List.length_cons] at hbounded
      show updates.buffer.length ≤ 1
      omega
    · rw [hsent]
      exact hold.ordered
    · rw [hsent]
      exact hold.latest hm
  · intro holder heq
    apply (h.holder holder heq).keep { sub with updates, received := sub.received ++ [version] }
      s.lock hsub hclosed rfl hsent
    intro hnil
    rw [hbuffer] at hnil
    cases hnil

theorem Invariant.cancel {s : State} (h : Invariant s) {id : ℕ} {sub : Subscription}
    (hsub : s.subscriptions id = some sub) (hlock : s.lock = none) :
    Invariant { s with
      subscriptions := Function.update s.subscriptions id (some { sub with canceled := true }),
      lock := some (.canceling id) } := by
  have hold := h.tracks id sub hsub
  have htodos := todo_of_unlocked hlock
  have hent := entering_of_unlocked hlock
  apply h.change id { sub with canceled := true } (some (.canceling id)) rfl hsub rfl
  · intro hid
    have ⟨sub', hsub', hopen⟩ := h.live id hid
    have hsame : sub = sub' := Option.some.inj (hsub.symm.trans hsub')
    exact hsame ▸ hopen
  · exact List.nil_sublist _
  · intro j _
    rw [htodos, hent]
    exact ⟨Iff.rfl, Iff.rfl⟩
  · rw [State.visible_of_not_mem (by rw [htodos]; exact List.not_mem_nil)] at hold
    rw [State.visible_of_not_mem (by exact List.not_mem_nil)]
    refine ⟨hold.capacity, hold.bounded, hold.ordered, fun hm => hold.latest ?_⟩
    rw [htodos, hent]
    exact ⟨hm.1, List.not_mem_nil, nofun⟩
  · intro holder heq
    rw [← Option.some.inj heq]
    exact ⟨_, Function.update_self ..⟩

/-! ## Every interleaving -/

theorem step_ok {G : GoPlatform} {s s' : State} {a : Action} (h : Invariant s)
    (hstep : step G s a = some s') : Invariant s' := by
  cases a with
  | publish envelope order =>
    simp only [step] at hstep
    split at hstep
    · cases hstep
    · split at hstep
      · next hcond =>
        rw [← Option.some.inj hstep]
        exact h.publish (Option.isNone_iff_eq_none.mp hcond.1) hcond.2
      · cases hstep
  | subscribe => exact h.subscribe hstep
  | cancel id =>
    simp only [step] at hstep
    split at hstep
    · cases hstep
    · next sub hsub =>
      split at hstep
      · exact Option.some.inj hstep ▸ h
      · split at hstep
        · next hnone =>
          rw [← Option.some.inj hstep]
          exact h.cancel hsub (Option.isNone_iff_eq_none.mp hnone)
        · cases hstep
  | advance =>
    simp only [step] at hstep
    split at hstep
    · cases hstep
    · next holder hlock =>
      have ⟨next, hnext, hinvariant⟩ := statement_ok h hlock
      rw [hnext] at hstep
      exact Option.some.inj hstep ▸ hinvariant
  | receive id =>
    simp only [step] at hstep
    split at hstep
    · cases hstep
    · next sub hsub =>
      split at hstep
      · next version updates hreceive =>
        rw [← Option.some.inj hstep]
        exact h.receive hsub hreceive
      · exact Option.some.inj hstep ▸ h
      · cases hstep

theorem reachable_invariant {G : GoPlatform} {s : State} (h : (machine G).Reachable s) :
    Invariant s := by
  apply h.invariant
  · intro s hs
    have hempty : s = empty := hs
    rw [hempty]
    exact invariant_empty
  · exact fun s a s' hI hstep => step_ok hI hstep

/-- The promise of the store in one state. -/
structure LatestValue (s : State) : Prop where
  /-- `Current` returns the last published version. -/
  current : s.current.map Snapshot.version = s.published.getLast?
  /-- What a subscriber has received is a subsequence of the publish order, from the version
  current at its `Subscribe` on. -/
  subsequence : ∀ id sub, s.subscriptions id = some sub →
    sub.received.Sublist (s.published.drop sub.since)
  /-- Unless a `Publish` is in progress, the version that waits for a live subscriber, or else
  the last one that it received, is the current one. -/
  upToDate : (∀ holder, s.lock = some holder → holder.isPublish = false) →
    ∀ id ∈ s.subscribers, s.entering ≠ some id → ∀ sub, s.subscriptions id = some sub →
      ∀ snapshot, s.current = some snapshot →
        sub.updates.buffer = [snapshot.version] ∨
          sub.updates.buffer = [] ∧ sub.received.getLast? = some snapshot.version
  /-- The goroutine that holds the mutex neither waits for a send nor panics over a closed
  channel. -/
  progress : ∀ holder, s.lock = some holder →
    statement s holder ≠ .blocked ∧ statement s holder ≠ .panicked

/-- The promise holds in every state of every interleaving. -/
theorem latest_value (G : GoPlatform) (s : State) (h : (machine G).Reachable s) :
    LatestValue s := by
  have hI := reachable_invariant h
  refine ⟨hI.current, fun id sub hsub => ?_, fun hidle id hid hentering sub hsub snapshot hcur => ?_,
    fun holder hlock => ?_⟩
  · have hvisible : (s.visible id).Sublist s.published := by
      unfold State.visible
      split
      · exact List.dropLast_sublist _
      · exact List.Sublist.refl _
    have hordered := (hI.tracks id sub hsub).ordered
    exact (List.sublist_append_left _ _).trans (hordered.trans (hvisible.drop _))
  · have htodo : s.todo = [] := by
      unfold State.todo
      cases hlock : s.lock with
      | none => rfl
      | some holder =>
        have hnot := hidle holder hlock
        cases holder <;> first | rfl | cases hnot
    have htracks := hI.tracks id sub hsub
    have hmem : id ∉ s.todo := by
      rw [htodo]
      exact List.not_mem_nil
    have hlast : s.published.getLast? = some snapshot.version := by
      rw [← hI.current, hcur]
      rfl
    rw [State.visible_of_not_mem hmem] at htracks
    have hsent := htracks.latest ⟨hid, hmem, hentering⟩ snapshot.version hlast
    have hbounded := htracks.bounded
    unfold Subscription.sent at hsent
    cases hbuffer : sub.updates.buffer with
    | nil =>
      rw [hbuffer, List.append_nil] at hsent
      exact .inr ⟨rfl, hsent⟩
    | cons version rest =>
      rw [hbuffer, List.length_cons] at hbounded
      have hnil : rest = [] := List.length_eq_zero_iff.mp (by omega)
      rw [hbuffer, hnil, List.getLast?_concat] at hsent
      rw [hnil, Option.some.inj hsent]
      exact .inl rfl
  · have ⟨next, hnext, _⟩ := statement_ok hI hlock
    rw [hnext]
    exact ⟨nofun, nofun⟩

/-- A platform for closed instances: nothing of it is called by the store. -/
def bare : GoPlatform where
  parseUrl _ := none
  isLoopbackAddress _ := false
  compileRegexp _ := .ok ()
  isPrint _ := false
  toUpper text := text
  sha256 _ := []
  sign _ _ := []
  numberText _ := ""

def envelopeOf (version : String) : Envelope where
  algorithm := AlgorithmEd25519
  keyID := "sha256:00"
  bundle :=
    { schemaVersion := BundleSchemaVersion, policyName := "orders", defaultDecision := "deny",
      matchers := [], routes := [], version }
  signature := "c2ln"

/-- A subscriber that is told of the first version and takes it while the third select of the
next publish is still to come. -/
def overlapping : List Action :=
  [.publish (envelopeOf "v1") [], .advance, .advance, .advance,
    .subscribe, .advance, .advance, .advance,
    .publish (envelopeOf "v2") [0], .advance, .advance, .advance, .receive 0, .advance, .advance,
    .advance, .advance]

theorem latest_value_overlapping :
    ∃ s sub, (machine bare).run empty overlapping = some s ∧ s.subscriptions 0 = some sub ∧
      sub.received = ["v1"] ∧ sub.updates.buffer = ["v2"] ∧ LatestValue s :=
  ⟨_, _, rfl, rfl, rfl, rfl, latest_value bare _ (.of_run overlapping (.init rfl) rfl)⟩

end ShieldWard.Control.Store

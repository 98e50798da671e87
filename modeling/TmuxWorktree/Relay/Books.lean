import TmuxWorktree.Relay.Pipes
/-!
# Books — what a carrier holds, and the counters it keeps of it

`Tidy` says of one carrier that its counters are the sums over its queues and that its data queues are in order.  A change
of a carrier is a posting (`Posts`): some entries come, some go, and the books stay tidy.
-/
namespace TmuxWorktree
namespace Relay

def Carrier.queued (c : Carrier) : List QueuedCarrierFrame := c.controlQueue ++ c.dataQueues.flatMap DataQueue.entries

def Carrier.flying (c : Carrier) : List QueuedCarrierFrame := c.inFlight.map InFlightCarrierFrame.toQueuedCarrierFrame

def Carrier.held (c : Carrier) : List QueuedCarrierFrame := c.queued ++ c.flying

/-- A client frame, with its number on the route `id`. -/
def QueuedCarrierFrame.carries (id : Nat) (e : QueuedCarrierFrame) : Bool := e.route == some id && e.routeSeq.isSome

/-- **What a carrier holds of a route's client**, queued or in flight. -/
def Carrier.load (c : Carrier) (id : Nat) : List QueuedCarrierFrame := c.held.filter (QueuedCarrierFrame.carries id)

def Carrier.data (c : Carrier) : List QueuedCarrierFrame := c.held.filter fun e => e.routeSeq.isSome

/-- **The counters of a carrier are the sums over its queues**, and the order lists the routes with data, each once. -/
structure Carrier.Tidy (c : Carrier) : Prop where
  queued : c.queuedBytes = wireSum c.queued
  flying : c.inFlightBytes = wireSum c.flying
  order : c.dataOrder = c.dataQueues.map DataQueue.routeId
  once : (c.dataQueues.map DataQueue.routeId).Nodup
  filled : ∀ q ∈ c.dataQueues, q.entries ≠ []
  tagged : ∀ q ∈ c.dataQueues, ∀ e ∈ q.entries, e.carries q.routeId = true
  control : ∀ e ∈ c.controlQueue, e.routeSeq = none
  deliveries : (c.inFlight.map InFlightCarrierFrame.deliveryId).Nodup

/-- **A posting**: `gone` goes and `come` comes. -/
structure Carrier.Posts (gone come : List QueuedCarrierFrame) (c c' : Carrier) : Prop where
  tidy : c'.Tidy
  held : (gone ++ c'.held).Perm (come ++ c.held)
  routeIds : c'.routeIds = c.routeIds
  credit : c'.hostToClientBufferedBytes = c.hostToClientBufferedBytes

/-! ## Sums -/

section
variable {l l' : List QueuedCarrierFrame} {e : QueuedCarrierFrame}

@[simp] theorem wireSum_nil : wireSum [] = 0 := rfl

@[simp] theorem wireSum_cons : wireSum (e :: l) = e.wireBytes + wireSum l := by simp [wireSum]

@[simp] theorem wireSum_append : wireSum (l ++ l') = wireSum l + wireSum l' := by simp [wireSum]

theorem wireSum_perm (h : l.Perm l') : wireSum l = wireSum l' := (h.map _).sum_eq

theorem wireSum_nonneg (l : List QueuedCarrierFrame) : 0 ≤ wireSum l := by
  induction l with
  | nil => exact le_rfl
  | cons e l ih =>
    rw [wireSum_cons]
    omega

theorem wireSum_filter_le (p : QueuedCarrierFrame → Bool) (l : List QueuedCarrierFrame) : wireSum (l.filter p) ≤ wireSum l := by
  induction l with
  | nil => exact le_rfl
  | cons e l ih =>
    by_cases hp : p e
    · rw [List.filter_cons_of_pos hp, wireSum_cons, wireSum_cons]
      omega
    · rw [List.filter_cons_of_neg hp, wireSum_cons]
      omega

@[simp] theorem rawSum_nil : rawSum [] = 0 := rfl

@[simp] theorem rawSum_cons : rawSum (e :: l) = e.rawBytes + rawSum l := by simp [rawSum]

@[simp] theorem rawSum_append : rawSum (l ++ l') = rawSum l + rawSum l' := by simp [rawSum]

theorem rawSum_perm (h : l.Perm l') : rawSum l = rawSum l' := (h.map _).sum_eq

theorem rawSum_nonneg (l : List QueuedCarrierFrame) : 0 ≤ rawSum l := by
  induction l with
  | nil => exact le_rfl
  | cons e l ih =>
    rw [rawSum_cons]
    omega

end

namespace Carrier

variable {c c' : Carrier} {e : QueuedCarrierFrame} {gone come : List QueuedCarrierFrame} {id : Nat}

theorem Tidy.bufferedBytes (h : c.Tidy) : c.bufferedBytes = wireSum c.held + c.hostToClientBufferedBytes := by
  unfold Carrier.bufferedBytes held
  rw [h.queued, h.flying, wireSum_append]

theorem Posts.load (h : Posts gone come c c') (id : Nat) :
    (gone.filter (QueuedCarrierFrame.carries id) ++ c'.load id).Perm
      (come.filter (QueuedCarrierFrame.carries id) ++ c.load id) := by
  have hp := h.held.filter (QueuedCarrierFrame.carries id)
  rwa [List.filter_append, List.filter_append] at hp

theorem Posts.data (h : Posts gone come c c') :
    (gone.filter (fun e => e.routeSeq.isSome) ++ c'.data).Perm (come.filter (fun e => e.routeSeq.isSome) ++ c.data) := by
  have hp := h.held.filter fun e => e.routeSeq.isSome
  rwa [List.filter_append, List.filter_append] at hp

theorem Posts.bufferedBytes (h : Posts gone come c c') (ht : c.Tidy) :
    c'.bufferedBytes + wireSum gone = c.bufferedBytes + wireSum come := by
  have hsum := wireSum_perm h.held
  rw [wireSum_append, wireSum_append] at hsum
  rw [h.tidy.bufferedBytes, ht.bufferedBytes, h.credit]
  omega

theorem Tidy.ready (h : c.Tidy) (n : Nat) : Tidy { c with outputReadyEpoch := n } :=
  ⟨h.queued, h.flying, h.order, h.once, h.filled, h.tagged, h.control, h.deliveries⟩

theorem inFlight_invalidateIfEmpty (c : Carrier) : c.invalidateIfEmpty.inFlight = c.inFlight := by
  unfold invalidateIfEmpty
  split <;> rfl

theorem Posts.ready (h : Posts gone come c c') : Posts gone come c c'.invalidateIfEmpty := by
  unfold invalidateIfEmpty
  split
  · exact ⟨h.tidy.ready _, h.held, h.routeIds, h.credit⟩
  · exact h

theorem dataQueue_keys (h : c.Tidy) (id : Nat) : id ∈ c.dataOrder ↔ c.entries id ≠ [] := by
  rw [h.order, List.mem_map]
  constructor
  · rintro ⟨q, hq, rfl⟩
    rw [entries_of_queue (show c.dataQueue q.routeId = some q from Keyed.find_of_mem h.once hq)]
    exact h.filled q hq
  · intro hne
    cases hq : c.dataQueue id with
    | none => exact absurd (entries_none hq) hne
    | some q => exact ⟨q, Keyed.mem_of_find hq, Keyed.key_of_find hq⟩

/-- **A control frame is queued.** -/
theorem Tidy.pushControl (h : c.Tidy) (he : e.routeSeq = none) :
    Posts [] [e] c { c with controlQueue := c.controlQueue ++ [e], queuedBytes := c.queuedBytes + e.wireBytes } := by
  have hqueued : (c.controlQueue ++ [e] ++ c.dataQueues.flatMap DataQueue.entries).Perm (e :: c.queued) := by
    rw [List.append_assoc, List.singleton_append]
    exact List.perm_middle
  refine ⟨⟨?_, h.flying, h.order, h.once, h.filled, h.tagged, fun x hx => ?_, h.deliveries⟩, hqueued.append_right _, rfl, rfl⟩
  · show c.queuedBytes + e.wireBytes = wireSum (c.controlQueue ++ [e] ++ c.dataQueues.flatMap DataQueue.entries)
    rw [wireSum_perm hqueued, wireSum_cons, h.queued]
    omega
  · rcases List.mem_append.mp hx with hx | hx
    · exact h.control x hx
    · rw [List.mem_singleton.mp hx]
      exact he

theorem Tidy.split (h : c.Tidy) {q : DataQueue} (hq : c.dataQueue id = some q) :
    (c.dataQueues.flatMap DataQueue.entries).Perm
      (q.entries ++ (Keyed.erase DataQueue.routeId id c.dataQueues).flatMap DataQueue.entries) := by
  have hp := (Keyed.perm_erase h.once hq).flatMap_right DataQueue.entries
  rwa [List.flatMap_cons] at hp

theorem Tidy.replaced (h : c.Tidy) {q : DataQueue} {f : DataQueue → DataQueue} (hq : c.dataQueue id = some q) :
    ((Keyed.update DataQueue.routeId id f c.dataQueues).flatMap DataQueue.entries).Perm
      ((f q).entries ++ (Keyed.erase DataQueue.routeId id c.dataQueues).flatMap DataQueue.entries) := by
  have hp := (Keyed.perm_update (f := f) h.once hq).flatMap_right DataQueue.entries
  rwa [List.flatMap_cons] at hp

/-- **A client frame is queued for its route.** -/
theorem Tidy.pushData (h : c.Tidy) (he : e.carries id = true) : Posts [] [e] c (c.pushData id e) := by
  unfold Carrier.pushData
  cases hq : c.dataQueue id with
  | none =>
    have hqueued : (c.controlQueue ++ (c.dataQueues ++ [DataQueue.mk id [e]]).flatMap DataQueue.entries).Perm (e :: c.queued) := by
      rw [List.flatMap_append, List.flatMap_singleton, ← List.append_assoc]
      exact List.perm_append_singleton e _
    have hnew : id ∉ c.dataQueues.map DataQueue.routeId := by
      intro hid
      obtain ⟨q, hmem, rfl⟩ := List.mem_map.mp hid
      exact absurd (hq.symm.trans (Keyed.find_of_mem h.once hmem)) (by simp)
    refine ⟨⟨?_, h.flying, ?_, ?_, fun q hmem => ?_, fun q hmem => ?_, h.control, h.deliveries⟩, hqueued.append_right _, rfl, rfl⟩
    · show c.queuedBytes + e.wireBytes = wireSum (c.controlQueue ++ (c.dataQueues ++ [DataQueue.mk id [e]]).flatMap DataQueue.entries)
      rw [wireSum_perm hqueued, wireSum_cons, h.queued]
      omega
    · rw [List.map_append, h.order]
      rfl
    · rw [List.map_append]
      exact h.once.append (List.nodup_singleton _) (by simpa using hnew)
    · rcases List.mem_append.mp hmem with hmem | hmem
      · exact h.filled q hmem
      · rw [List.mem_singleton.mp hmem]
        simp
    · rcases List.mem_append.mp hmem with hmem | hmem
      · exact h.tagged q hmem
      · rw [List.mem_singleton.mp hmem]
        simpa using he
  | some q =>
    have hqueued : (c.controlQueue ++ (Keyed.update DataQueue.routeId id (fun q => { q with entries := q.entries ++ [e] })
        c.dataQueues).flatMap DataQueue.entries).Perm (e :: c.queued) := by
      have hp : (c.controlQueue ++ (q.entries ++ [e] ++
          (Keyed.erase DataQueue.routeId id c.dataQueues).flatMap DataQueue.entries)).Perm (e :: (c.controlQueue ++
          (q.entries ++ (Keyed.erase DataQueue.routeId id c.dataQueues).flatMap DataQueue.entries))) := by
        rw [List.append_assoc, List.singleton_append, ← List.append_assoc, ← List.append_assoc]
        exact List.perm_middle
      exact ((h.replaced hq).append_left _).trans (hp.trans (((h.split hq).append_left _).symm.cons e))
    refine ⟨⟨?_, h.flying, ?_, ?_, fun q' hmem => ?_, fun q' hmem => ?_, h.control, h.deliveries⟩, hqueued.append_right _, rfl, rfl⟩
    · show c.queuedBytes + e.wireBytes = wireSum (c.controlQueue ++ (Keyed.update DataQueue.routeId id
        (fun q => { q with entries := q.entries ++ [e] }) c.dataQueues).flatMap DataQueue.entries)
      rw [wireSum_perm hqueued, wireSum_cons, h.queued]
      omega
    · rw [Keyed.keys_update (by exact fun _ hk => hk), h.order]
    · rw [Keyed.keys_update (by exact fun _ hk => hk)]
      exact h.once
    · rcases Keyed.mem_update_iff.mp hmem with ⟨q₀, _, _, rfl⟩ | ⟨hmem, _⟩
      · simp
      · exact h.filled q' hmem
    · rcases Keyed.mem_update_iff.mp hmem with ⟨q₀, hmem₀, rfl, rfl⟩ | ⟨hmem, _⟩
      · intro x hx
        rcases List.mem_append.mp hx with hx | hx
        · exact h.tagged q₀ hmem₀ x hx
        · rw [List.mem_singleton.mp hx]
          exact he
      · exact h.tagged q' hmem

theorem Tidy.erased (h : c.Tidy) (id : Nat) : (Keyed.erase DataQueue.routeId id c.dataQueues).map DataQueue.routeId =
    c.dataOrder.erase id := by
  have hnd : c.dataOrder.Nodup := h.order ▸ h.once
  rw [hnd.erase_eq_filter, h.order, List.filter_map]
  unfold Keyed.erase
  congr 1
  refine List.filter_congr fun q _ => ?_
  by_cases hq : q.routeId = id <;> simp [hq]

/-- **The data queue of a route is taken off.** -/
theorem Tidy.withoutData (h : c.Tidy) (id : Nat) : Posts (c.entries id) [] c (c.withoutData id) := by
  unfold Carrier.withoutData
  cases hq : c.dataQueue id with
  | none =>
    rw [entries_none hq]
    exact ⟨h, .refl _, rfl, rfl⟩
  | some q =>
    rw [entries_of_queue hq]
    have hqueued : c.queued.Perm
        (q.entries ++ (c.controlQueue ++ (Keyed.erase DataQueue.routeId id c.dataQueues).flatMap DataQueue.entries)) := by
      refine ((h.split hq).append_left _).trans ?_
      rw [← List.append_assoc, ← List.append_assoc]
      exact List.perm_append_comm.append_right _
    refine Posts.ready ⟨⟨?_, h.flying, (h.erased id).symm, ?_, fun q' hmem => ?_, fun q' hmem => ?_, h.control, h.deliveries⟩,
      ?_, rfl, rfl⟩
    · show c.queuedBytes - wireSum q.entries = wireSum
        (c.controlQueue ++ (Keyed.erase DataQueue.routeId id c.dataQueues).flatMap DataQueue.entries)
      rw [h.queued, wireSum_perm hqueued, @wireSum_append q.entries]
      omega
    · exact Keyed.keys_erase h.once
    · exact h.filled q' (Keyed.mem_erase_iff.mp hmem).1
    · exact h.tagged q' (Keyed.mem_erase_iff.mp hmem).1
    · show (q.entries ++ (_ ++ c.flying)).Perm ([] ++ (c.queued ++ c.flying))
      rw [← List.append_assoc]
      exact (hqueued.append_right _).symm

/-- **The control frames of a route are taken off.** -/
theorem Tidy.withoutControl (h : c.Tidy) (id : Nat) :
    Posts (c.controlQueue.filter fun e => e.route == some id) [] c (c.withoutControl id) := by
  unfold Carrier.withoutControl
  have hqueued : c.queued.Perm ((c.controlQueue.filter fun e => e.route == some id) ++
      ((c.controlQueue.filter fun e => e.route != some id) ++ c.dataQueues.flatMap DataQueue.entries)) := by
    rw [← List.append_assoc]
    exact (List.filter_append_perm (fun e : QueuedCarrierFrame => e.route == some id) c.controlQueue).symm.append_right _
  refine Posts.ready ⟨⟨?_, h.flying, h.order, h.once, h.filled, h.tagged, fun e he => ?_, h.deliveries⟩, ?_, rfl, rfl⟩
  · show c.queuedBytes - wireSum _ = wireSum
      ((c.controlQueue.filter fun e => e.route != some id) ++ c.dataQueues.flatMap DataQueue.entries)
    rw [h.queued, wireSum_perm hqueued, @wireSum_append (c.controlQueue.filter fun e => e.route == some id)]
    omega
  · exact h.control e (List.mem_filter.mp he).1
  · show (_ ++ (_ ++ c.flying)).Perm ([] ++ (c.queued ++ c.flying))
    rw [← List.append_assoc]
    exact (hqueued.append_right _).symm

/-- The accounting of a dispatch, on the carrier's side. -/
def dispatched (c : Carrier) (e : QueuedCarrierFrame) (delivery : Nat) : Carrier :=
  { c with
    queuedBytes := c.queuedBytes - e.wireBytes
    inFlightBytes := c.inFlightBytes + e.wireBytes
    inFlight := c.inFlight ++ [⟨e, delivery⟩] }

theorem Tidy.launch (h : c.Tidy) {n : Nat} (hn : ∀ e ∈ c.inFlight, e.deliveryId < n) :
    (c.dispatched e n).inFlightBytes = wireSum (c.dispatched e n).flying ∧
      ((c.dispatched e n).inFlight.map InFlightCarrierFrame.deliveryId).Nodup ∧
      (c.dispatched e n).flying = c.flying ++ [e] := by
  have hflying : (c.dispatched e n).flying = c.flying ++ [e] := by
    simp [Carrier.flying, dispatched]
  refine ⟨?_, ?_, hflying⟩
  · rw [hflying, wireSum_append, ← h.flying]
    simp [dispatched]
  · unfold dispatched
    rw [List.map_append]
    refine h.deliveries.append (by simp) fun x hx hx' => ?_
    obtain ⟨y, hy, rfl⟩ := List.mem_map.mp hx
    rw [List.map_singleton, List.mem_singleton] at hx'
    exact Nat.lt_irrefl _ (hx' ▸ hn y hy)

/-- **The head of the control queue goes out.** -/
theorem Tidy.dispatchControl (h : c.Tidy) {n : Nat} (hn : ∀ e ∈ c.inFlight, e.deliveryId < n) {rest : List QueuedCarrierFrame}
    (head : c.controlQueue = e :: rest) :
    Posts [] [] c (invalidateIfEmpty { c.dispatched e n with controlQueue := c.controlQueue.tail }) := by
  obtain ⟨hsum, hnd, hflying⟩ := h.launch hn (e := e)
  have hqueued : c.queued = e :: (rest ++ c.dataQueues.flatMap DataQueue.entries) := by
    unfold Carrier.queued
    rw [head, List.cons_append]
  refine Posts.ready ⟨⟨?_, hsum, h.order, h.once, h.filled, h.tagged, fun x hx => ?_, hnd⟩, ?_, rfl, rfl⟩
  · show c.queuedBytes - e.wireBytes = wireSum (c.controlQueue.tail ++ c.dataQueues.flatMap DataQueue.entries)
    rw [h.queued, hqueued, head, wireSum_cons, List.tail_cons]
    omega
  · exact h.control x (List.mem_of_mem_tail hx)
  · show ((c.controlQueue.tail ++ _) ++ (c.dispatched e n).flying).Perm (c.queued ++ c.flying)
    rw [hflying, hqueued, head, List.tail_cons, ← List.append_assoc]
    exact List.perm_append_singleton e _

/-- **The head of a data queue goes out.** -/
theorem Tidy.dispatchData (h : c.Tidy) {n : Nat} (hn : ∀ e ∈ c.inFlight, e.deliveryId < n) {rest : List QueuedCarrierFrame}
    (turn : c.dataOrder[c.dataCursor]? = some id) (head : (c.dataQueue id).map DataQueue.entries = some (e :: rest)) :
    Posts [] [] c ((c.dispatched e n).popData id rest) := by
  obtain ⟨hsum, hnd, hflying⟩ := h.launch hn (e := e)
  obtain ⟨q, hq, hentries⟩ := Option.map_eq_some_iff.mp head
  obtain ⟨hlt, hid⟩ := List.getElem?_eq_some_iff.mp turn
  have hkey : q.routeId = id := Keyed.key_of_find hq
  have htag : ∀ x ∈ e :: rest, x.carries id = true := fun x hx => by
    rw [← hkey]
    exact h.tagged q (Keyed.mem_of_find hq) x (hentries ▸ hx)
  have hqueued : c.queued.Perm (e :: (c.controlQueue ++ (rest ++
      (Keyed.erase DataQueue.routeId id c.dataQueues).flatMap DataQueue.entries))) := by
    refine ((h.split hq).append_left _).trans ?_
    rw [hentries, List.cons_append]
    exact List.perm_middle
  have hpost : ∀ (queues : List DataQueue) (order : List Nat) (cursor : Nat), order = queues.map DataQueue.routeId →
      (queues.map DataQueue.routeId).Nodup → (∀ q ∈ queues, q.entries ≠ []) →
      (∀ q ∈ queues, ∀ e ∈ q.entries, e.carries q.routeId = true) →
      (queues.flatMap DataQueue.entries).Perm
        (rest ++ (Keyed.erase DataQueue.routeId id c.dataQueues).flatMap DataQueue.entries) →
      Posts [] [] c { c.dispatched e n with dataQueues := queues, dataOrder := order, dataCursor := cursor } := by
    intro queues order cursor ho hk hf ht hp
    have hq' := hqueued.trans ((hp.symm.append_left c.controlQueue).cons e)
    refine ⟨⟨?_, hsum, ho, hk, hf, ht, h.control, hnd⟩, ?_, rfl, rfl⟩
    · show c.queuedBytes - e.wireBytes = wireSum (c.controlQueue ++ queues.flatMap DataQueue.entries)
      rw [h.queued, wireSum_perm hq', wireSum_cons]
      omega
    · show ((c.controlQueue ++ queues.flatMap DataQueue.entries) ++ (c.dispatched e n).flying).Perm (c.queued ++ c.flying)
      rw [hflying, ← List.append_assoc]
      exact (List.perm_append_singleton e _).trans (hq'.symm.append_right _)
  have hnd' : c.dataOrder.Nodup := h.order ▸ h.once
  unfold Carrier.popData
  by_cases hr : rest.isEmpty
  · rw [if_pos hr]
    refine Posts.ready (hpost _ _ _ ?_ (Keyed.keys_erase h.once) (fun q' hmem => h.filled q' (Keyed.mem_erase_iff.mp hmem).1)
      (fun q' hmem => h.tagged q' (Keyed.mem_erase_iff.mp hmem).1) ?_)
    · show c.dataOrder.eraseIdx c.dataCursor = (Keyed.erase DataQueue.routeId id c.dataQueues).map DataQueue.routeId
      rw [h.erased id, ← hid, hnd'.erase_getElem]
    · rw [List.isEmpty_iff.mp hr]
      exact .refl _
  · rw [if_neg hr]
    refine hpost _ _ _ ?_ ?_ (fun q' hmem => ?_) (fun q' hmem => ?_) ?_
    · show c.dataOrder = _
      rw [Keyed.keys_update (by exact fun _ hk => hk), h.order]
      rfl
    · rw [Keyed.keys_update (by exact fun _ hk => hk)]
      exact h.once
    · rcases Keyed.mem_update_iff.mp hmem with ⟨q₀, _, _, rfl⟩ | ⟨hmem', _⟩
      · exact fun hnil => hr (List.isEmpty_iff.mpr hnil)
      · exact h.filled q' hmem'
    · rcases Keyed.mem_update_iff.mp hmem with ⟨q₀, _, hk, rfl⟩ | ⟨hmem', _⟩
      · intro x hx
        rw [show ({ q₀ with entries := rest } : DataQueue).routeId = id from hk]
        exact htag x (List.mem_cons_of_mem _ hx)
      · exact h.tagged q' hmem'
    · exact h.replaced (f := fun q => { q with entries := rest }) hq

theorem Tidy.no_skip (h : c.Tidy) (turn : c.dataOrder[c.dataCursor]? = some id) :
    ¬ ((c.dataQueue id).map DataQueue.entries = none ∨ (c.dataQueue id).map DataQueue.entries = some []) := by
  have hne := (dataQueue_keys h id).mp (List.mem_of_getElem? turn)
  unfold entries at hne
  rintro (hnone | hnil)
  · rw [hnone] at hne
    exact hne rfl
  · rw [hnil] at hne
    exact hne rfl

/-- **A delivery is acknowledged.** -/
theorem Tidy.acknowledge (h : c.Tidy) {x : InFlightCarrierFrame} (hx : x ∈ c.inFlight) :
    Posts [x.toQueuedCarrierFrame] [] c { c with
      inFlight := c.inFlight.filter fun y => y.deliveryId ≠ x.deliveryId, inFlightBytes := c.inFlightBytes - x.wireBytes } := by
  have hp : c.flying.Perm (x.toQueuedCarrierFrame ::
      (c.inFlight.filter fun y => y.deliveryId ≠ x.deliveryId).map InFlightCarrierFrame.toQueuedCarrierFrame) :=
    (Keyed.perm_erase h.deliveries (Keyed.find_of_mem h.deliveries hx)).map InFlightCarrierFrame.toQueuedCarrierFrame
  refine ⟨⟨h.queued, ?_, h.order, h.once, h.filled, h.tagged, h.control, Keyed.keys_erase h.deliveries⟩, ?_, rfl, rfl⟩
  · show c.inFlightBytes - x.wireBytes = wireSum
      ((c.inFlight.filter fun y => y.deliveryId ≠ x.deliveryId).map InFlightCarrierFrame.toQueuedCarrierFrame)
    rw [h.flying, wireSum_perm hp, wireSum_cons]
    omega
  · show (x.toQueuedCarrierFrame :: (c.queued ++ _)).Perm (c.queued ++ c.flying)
    exact (List.perm_middle.symm).trans (hp.symm.append_left _)

theorem tidy_discarded (c : Carrier) : c.discarded.Tidy ∧ c.discarded.held = [] :=
  ⟨⟨rfl, rfl, rfl, List.nodup_nil, (fun _ h => nomatch h), (fun _ h => nomatch h), (fun _ h => nomatch h), List.nodup_nil⟩, rfl⟩

end Carrier

end Relay
end TmuxWorktree

import TmuxWorktree.Relay.Single
/-!
# Pipes — a route is a pair of pipes

What a client sent and the broker took is in the trace as `forwarded`, and what went on to the host as `dispatched`; the
difference is the data queue of the route.  The other way it is `admitted` and `made` against `handed`, and the queue of
the client.  Here are the readings of the trace and of the queues, and what it means for a change to leave them alone.
-/
namespace TmuxWorktree
namespace Relay

/-! ## Reading the trace -/

/-- The events that `f` picks, oldest first. -/
def picked {α : Type} (f : Event → Option α) (t : List Event) : List α := t.reverse.filterMap f

theorem picked_cons {α : Type} (f : Event → Option α) (e : Event) (t : List Event) :
    picked f (e :: t) = picked f t ++ (f e).toList := by
  unfold picked
  rw [List.reverse_cons, List.filterMap_append]
  cases h : f e <;> simp [h]

theorem mem_picked {α : Type} {f : Event → Option α} {t : List Event} {a : α} :
    a ∈ picked f t ↔ ∃ e ∈ t, f e = some a := by
  unfold picked
  simp

def Event.forwardOn (id : Nat) : Event → Option (Nat × Bytes)
  | .forwarded route seq bytes => if route = id then some (seq, bytes) else none
  | _ => none

def Event.dispatchOn (id : Nat) : Event → Option (Nat × Bytes)
  | .dispatched _ (.routeData route _ seq bytes) => if route = id then some (seq, bytes) else none
  | _ => none

def Event.admitOn (id : Nat) : Event → Option (Nat × Bytes)
  | .admitted route seq bytes _ => if route = id then some (seq, bytes) else none
  | _ => none

def Event.pushOn (C : Config) (id : Nat) : Event → Option Bytes
  | .admitted route _ _ (some out) => if route = id then some out else none
  | .made route frame => if route = id then some (C.codec.encode frame) else none
  | _ => none

def Event.handOn (id : Nat) : Event → Option Bytes
  | .handed _ route bytes => if route = id then some bytes else none
  | _ => none

/-- The client frames that went into the pipe, with their numbers. -/
def forwards (id : Nat) (t : List Event) : List (Nat × Bytes) := picked (Event.forwardOn id) t

/-- The `route.data` that came out of it. -/
def dispatches (id : Nat) (t : List Event) : List (Nat × Bytes) := picked (Event.dispatchOn id) t

def admits (id : Nat) (t : List Event) : List (Nat × Bytes) := picked (Event.admitOn id) t

def pushes (C : Config) (id : Nat) (t : List Event) : List Bytes := picked (Event.pushOn C id) t

def hands (id : Nat) (t : List Event) : List Bytes := picked (Event.handOn id) t

/-- The route that an event is about, a dispatch apart. -/
def Event.about : Event → Option Nat
  | .created route .. => some route
  | .forwarded route .. => some route
  | .admitted route .. => some route
  | .made route _ => some route
  | .handed _ route _ => some route
  | _ => none

theorem picked_eq_nil {α : Type} {f : Event → Option α} {t : List Event} (h : ∀ e ∈ t, f e = none) : picked f t = [] := by
  refine List.eq_nil_iff_forall_not_mem.mpr fun a ha => ?_
  obtain ⟨e, he, hf⟩ := mem_picked.mp ha
  rw [h e he] at hf
  cases hf

theorem pipes_nil (C : Config) {id : Nat} {t : List Event} (h : ∀ e ∈ t, e.about ≠ some id) :
    forwards id t = [] ∧ admits id t = [] ∧ pushes C id t = [] ∧ hands id t = [] := by
  refine ⟨picked_eq_nil fun e he => ?_, picked_eq_nil fun e he => ?_, picked_eq_nil fun e he => ?_, picked_eq_nil fun e he => ?_⟩
  all_goals
    have hne := h e he
    cases e with
    | admitted route seq bytes out =>
      cases out <;> simp_all [Event.about, Event.forwardOn, Event.admitOn, Event.pushOn, Event.handOn]
    | _ => simp_all [Event.about, Event.forwardOn, Event.admitOn, Event.pushOn, Event.handOn]

/-! ## The queues -/

def Carrier.entries (c : Carrier) (id : Nat) : List QueuedCarrierFrame := ((c.dataQueue id).map DataQueue.entries).getD []

def QueuedCarrierFrame.payload (e : QueuedCarrierFrame) : Option (Nat × Bytes) :=
  match e.frame with
  | .routeData _ _ seq bytes => some (seq, bytes)
  | _ => none

section
variable (c : Carrier) (id id' : Nat)

theorem Carrier.entries_of_queues {c c' : Carrier} (h : c'.dataQueues = c.dataQueues) (id : Nat) : c'.entries id = c.entries id := by
  unfold entries dataQueue
  rw [h]

theorem Carrier.queues_invalidateIfEmpty : c.invalidateIfEmpty.dataQueues = c.dataQueues ∧
    c.invalidateIfEmpty.controlQueue = c.controlQueue ∧ c.invalidateIfEmpty.attached = c.attached ∧
    c.invalidateIfEmpty.transportId = c.transportId := by
  unfold invalidateIfEmpty
  split <;> exact ⟨rfl, rfl, rfl, rfl⟩

theorem entries_erase {c' : Carrier} (h : c'.dataQueues = Keyed.erase DataQueue.routeId id c.dataQueues) :
    c'.entries id' = if id' = id then [] else c.entries id' := by
  unfold Carrier.entries Carrier.dataQueue
  rw [h]
  split
  · next heq => rw [heq, Keyed.find_erase_self]; rfl
  · next hne => rw [Keyed.find_erase_ne hne]

theorem entries_update {c' : Carrier} {q : DataQueue} {f : List QueuedCarrierFrame → List QueuedCarrierFrame}
    (hq : c.dataQueue id = some q)
    (h : c'.dataQueues = Keyed.update DataQueue.routeId id (fun q => { q with entries := f q.entries }) c.dataQueues) :
    c'.entries id' = if id' = id then f q.entries else c.entries id' := by
  unfold Carrier.entries Carrier.dataQueue at *
  rw [h]
  split
  · next heq =>
    rw [heq, Keyed.find_update_self (by exact fun _ hk => hk), hq]
    rfl
  · next hne => rw [Keyed.find_update_ne (by exact fun _ hk => hk) hne]

theorem Carrier.entries_of_queue {c : Carrier} {id : Nat} {q : DataQueue} (h : c.dataQueue id = some q) :
    c.entries id = q.entries := by
  unfold entries
  rw [h]
  rfl

theorem Carrier.entries_none {c : Carrier} {id : Nat} (h : c.dataQueue id = none) : c.entries id = [] := by
  unfold entries
  rw [h]
  rfl

theorem Carrier.entries_pushData (e : QueuedCarrierFrame) :
    (c.pushData id e).entries id' = if id' = id then c.entries id ++ [e] else c.entries id' := by
  unfold pushData
  cases hq : c.dataQueue id with
  | none =>
    rw [entries_none hq]
    unfold entries dataQueue at *
    dsimp only
    rw [Keyed.find_append_single]
    by_cases heq : id' = id
    · rw [heq, hq]
      simp
    · rw [if_neg (Ne.symm heq), if_neg heq, Option.or_none]
  | some q =>
    rw [entries_of_queue hq]
    exact entries_update (f := fun l => l ++ [e]) c id id' hq rfl

theorem Carrier.entries_withoutData : (c.withoutData id).entries id' = if id' = id then [] else c.entries id' := by
  unfold withoutData
  cases hq : c.dataQueue id with
  | none =>
    by_cases heq : id' = id
    · rw [if_pos heq, heq]
      exact entries_none hq
    · rw [if_neg heq]
  | some q => exact entries_erase c id id' (queues_invalidateIfEmpty _).1

theorem Carrier.entries_popData {e : QueuedCarrierFrame} {rest : List QueuedCarrierFrame}
    (h : (c.dataQueue id).map DataQueue.entries = some (e :: rest)) :
    (c.popData id rest).entries id' = if id' = id then rest else c.entries id' := by
  unfold popData
  obtain ⟨q, hq, _⟩ := Option.map_eq_some_iff.mp h
  split
  · next hr =>
    rw [List.isEmpty_iff.mp hr]
    exact entries_erase c id id' (queues_invalidateIfEmpty _).1
  · exact entries_update (f := fun _ => rest) c id id' hq rfl

end

/-! ## What a change leaves alone -/

/-- The values at the keys look the same to `φ`. -/
def Looks {ν α : Type} (φ : ν → α) (find find' : Nat → Option ν) : Prop := ∀ k, (find' k).map φ = (find k).map φ

namespace Looks

variable {ν α : Type} {φ : ν → α} {find find' find'' : Nat → Option ν}

theorem refl (find : Nat → Option ν) : Looks φ find find := fun _ => rfl

theorem trans (h : Looks φ find find') (h' : Looks φ find' find'') : Looks φ find find'' := fun k => (h' k).trans (h k)

theorem get (h : Looks φ find find') {k : Nat} {v' : ν} (hv : find' k = some v') : ∃ v, find k = some v ∧ φ v = φ v' := by
  have hk := h k
  rw [hv, Option.map_some] at hk
  exact Option.map_eq_some_iff.mp hk.symm

theorem comp {β : Type} (ψ : α → β) (h : Looks φ find find') : Looks (fun v => ψ (φ v)) find find' := by
  intro k
  have hk := congrArg (Option.map ψ) (h k)
  simpa only [Option.map_map, Function.comp_def] using hk

theorem update {key : ν → Nat} {k : Nat} {f : ν → ν} {l : List ν} (hkey : ∀ v, key (f v) = key v)
    (hf : ∀ v, Keyed.find key k l = some v → φ (f v) = φ v) :
    Looks φ (fun k => Keyed.find key k l) (fun k' => Keyed.find key k' (Keyed.update key k f l)) := by
  intro k'
  dsimp only
  by_cases hk : k' = k
  · subst hk
    rw [Keyed.find_update_self fun v hv => (hkey v).trans hv]
    cases hv : Keyed.find key k' l with
    | none => rfl
    | some v =>
      simp only [Option.map_some]
      rw [hf v hv]
  · rw [Keyed.find_update_ne (fun v hv => (hkey v).trans hv) hk]

theorem of_bare {key : ν → Nat} {bare : ν → ν} {l l' : List ν} (h : l'.map bare = l.map bare)
    (hkey : ∀ v, key (bare v) = key v) (hφ : ∀ v, φ (bare v) = φ v) :
    Looks φ (fun k => Keyed.find key k l) (fun k => Keyed.find key k l') := by
  intro k
  have hcomm : ∀ l : List ν, (Keyed.find key k l).map φ = (Keyed.find key k (l.map bare)).map φ := by
    intro l
    rw [Keyed.find_map hkey, Option.map_map]
    congr 1
    funext v
    exact (hφ v).symm
  dsimp only
  rw [hcomm l', h, ← hcomm l]

end Looks

/-- What the pipes depend on of a carrier, a route and a client. -/
def Carrier.pipe (c : Carrier) : Bool × Nat × List DataQueue × List QueuedCarrierFrame :=
  (c.attached, c.transportId, c.dataQueues, c.controlQueue)

def Route.pipe (r : Route) : (Nat × Nat × Nat) × RouteStatus × Nat × Nat :=
  ((r.connectionId, r.routeFence, r.carrierTransportId), r.status, r.nextClientToHostSeq, r.expectedHostToClientSeq)

def Client.pipe (c : Client) : Nat × List QueuedClientFrame := (c.routeId, c.queue)

/-- **The pipes are what they were.** -/
structure Alike (b b' : Broker) : Prop where
  carrier : Looks Carrier.pipe b.carrierOf b'.carrierOf
  route : Looks Route.pipe b.routeOf b'.routeOf
  client : Looks Client.pipe b.clientAt b'.clientAt

namespace Alike

variable {b b' b'' : Broker}

theorem refl (b : Broker) : Alike b b := ⟨.refl _, .refl _, .refl _⟩

theorem trans (h : Alike b b') (h' : Alike b' b'') : Alike b b'' :=
  ⟨h.carrier.trans h'.carrier, h.route.trans h'.route, h.client.trans h'.client⟩

theorem setCarrier {f : Carrier → Carrier} (b : Broker) (s : Nat) (hf : ∀ c, (f c).serial = c.serial ∧ (f c).pipe = c.pipe) :
    Alike b (b.setCarrier s f) := ⟨.update (fun c => (hf c).1) fun c _ => (hf c).2, .refl _, .refl _⟩

theorem setRoute {g : Route → Route} (b : Broker) (id : Nat) (hg : ∀ r, (g r).routeId = r.routeId ∧ (g r).pipe = r.pipe) :
    Alike b (b.setRoute id g) := ⟨.refl _, .update (fun r => (hg r).1) fun r _ => (hg r).2, .refl _⟩

theorem setClient {k : Client → Client} (b : Broker) (id : Nat)
    (hk : ∀ c, (k c).connectionId = c.connectionId ∧ (k c).pipe = c.pipe) : Alike b (b.setClient id k) :=
  ⟨.refl _, .refl _, .update (fun c => (hk c).1) fun c _ => (hk c).2⟩

theorem noteRequest (id : Nat) (f : PublicFrame) (b : Broker) : Alike b (b.noteRequest id f) := by
  obtain ⟨g, heq, hg⟩ := noteRequest_eq id f b
  rw [heq]
  exact .setRoute b _ fun r => ⟨by rw [hg r], by rw [hg r]; rfl⟩

theorem of_quiet (h : Quiet b b') : Alike b b' :=
  ⟨.of_bare h.carriers (fun _ => rfl) fun _ => rfl, .of_bare h.routes (fun _ => rfl) fun _ => rfl,
    .of_bare h.clients (fun _ => rfl) fun _ => rfl⟩

theorem releaseHostToClient (r : Route) (entries : List QueuedClientFrame) (b : Broker) :
    Alike b (b.releaseHostToClient r entries) := by
  unfold Broker.releaseHostToClient
  have hr := Alike.setRoute b r.routeId fun r => (⟨rfl, rfl⟩ : (r.releasing entries).routeId = r.routeId ∧ _)
  dsimp only
  split
  · exact hr
  · exact hr.trans (.setCarrier _ _ fun _ => ⟨rfl, rfl⟩)

theorem withdraw (e : Extension) (b : Broker) : Alike b (b.withdrawOptionalCapability e) := by
  unfold Broker.withdrawOptionalCapability
  split
  · exact .refl b
  · refine ⟨.refl _, fun id => ?_, .refl _⟩
    show (Keyed.find Route.routeId id (b.routes.map _)).map _ = _
    rw [Keyed.find_map fun r => by split <;> rfl, Option.map_map]
    congr 1
    funext r
    simp only [Function.comp]
    split <;> rfl

theorem discardCarrier_routes (l : List InFlightCarrierFrame) (b : Broker) :
    Alike b (l.foldl (fun b e =>
      match e.route, e.routeSeq with
      | some routeId, some _ => b.setRoute routeId fun r =>
        { r with
          clientToHostBufferedBytes := max 0 (r.clientToHostBufferedBytes - e.rawBytes)
          clientToHostFrames := max 0 (r.clientToHostFrames - 1) }
      | _, _ => b) b) := by
  induction l generalizing b with
  | nil => exact .refl b
  | cons e l ih =>
    rw [List.foldl_cons]
    refine Alike.trans ?_ (ih _)
    split
    · exact .setRoute b _ fun _ => ⟨rfl, rfl⟩
    · exact .refl b

end Alike

theorem discardCarrier_trace (l : List InFlightCarrierFrame) (b : Broker) :
    (l.foldl (fun b e =>
      match e.route, e.routeSeq with
      | some routeId, some _ => b.setRoute routeId fun r =>
        { r with
          clientToHostBufferedBytes := max 0 (r.clientToHostBufferedBytes - e.rawBytes)
          clientToHostFrames := max 0 (r.clientToHostFrames - 1) }
      | _, _ => b) b).trace = b.trace := by
  induction l generalizing b with
  | nil => rfl
  | cons e l ih =>
    rw [List.foldl_cons, ih]
    split <;> rfl

namespace Alike

variable {b : Broker}

theorem acknowledge (s : Nat) (e : InFlightCarrierFrame) (b : Broker) : Alike b (b.acknowledge s e) := by
  unfold Broker.acknowledge
  dsimp only
  split
  · exact (Alike.setCarrier b _ (by exact fun _ => ⟨rfl, rfl⟩)).trans (.setRoute _ _ (by exact fun _ => ⟨rfl, rfl⟩))
  · exact .setCarrier b _ (by exact fun _ => ⟨rfl, rfl⟩)

theorem emit (e : Event) (b : Broker) : Alike b (b.emit e) := ⟨.refl _, .refl _, .refl _⟩

theorem named (b : Broker) : Alike b b.named := ⟨.refl _, .refl _, .refl _⟩

theorem dispatch (s : Nat) (e : QueuedCarrierFrame) (b : Broker) : Alike b (b.dispatch s e) := by
  unfold Broker.dispatch
  refine Alike.trans ?_ ((Alike.named _).trans (.emit _ _))
  split
  · exact (Alike.setCarrier b _ (by exact fun _ => ⟨rfl, rfl⟩)).trans (.setRoute _ _ (by exact fun _ => ⟨rfl, rfl⟩))
  · exact .setCarrier b _ (by exact fun _ => ⟨rfl, rfl⟩)

theorem direction (d : Direction) (time : Nat) (r : Route) :
    ((r.clocked time d).routeId = r.routeId ∧ (r.clocked time d).pipe = r.pipe) ∧
      ((r.halted d).routeId = r.routeId ∧ (r.halted d).pipe = r.pipe) ∧
      ((r.released d).routeId = r.routeId ∧ (r.released d).pipe = r.pipe) := by
  cases d <;> exact ⟨⟨rfl, rfl⟩, ⟨rfl, rfl⟩, ⟨rfl, rfl⟩⟩

end Alike

/-! ## The end of a route -/

section
variable {b b' : Broker} {id : Nat}

theorem Sound.same_carrier {D : List Nat} (h : Sound D b) {s s' : Nat} {c c' : Carrier} (hc : b.carrierOf s = some c)
    (hc' : b.carrierOf s' = some c') (ha : c.attached = true) (ha' : c'.attached = true)
    (ht : c.transportId = c'.transportId) : s = s' ∧ c = c' := by
  obtain rfl := h.owned.transports s _ s' _ (ownership_carrier hc) (ownership_carrier hc') ha ha' ht
  exact ⟨rfl, Option.some.inj (hc.symm.trans hc')⟩

/-- Data and control of one route are taken off the carriers, and nothing else. -/
def Thinned (id : Nat) (b b' : Broker) : Prop :=
  ∀ s c', b'.carrierOf s = some c' → ∃ c, b.carrierOf s = some c ∧ c'.attached = c.attached ∧
    c'.transportId = c.transportId ∧ (∀ e ∈ c'.controlQueue, e ∈ c.controlQueue) ∧
    (∀ id', id' ≠ id → c'.entries id' = c.entries id') ∧ (c'.entries id = [] ∨ c'.entries id = c.entries id)

namespace Thinned

variable {b'' : Broker}

theorem trans (h : Thinned id b b') (h' : Thinned id b' b'') : Thinned id b b'' := by
  intro s c'' hc''
  obtain ⟨c', hc', h1, h2, h3, h4, h5⟩ := h' s c'' hc''
  obtain ⟨c, hc, k1, k2, k3, k4, k5⟩ := h s c' hc'
  refine ⟨c, hc, h1.trans k1, h2.trans k2, fun e he => k3 e (h3 e he), fun id' hid => (h4 id' hid).trans (k4 id' hid), ?_⟩
  rcases h5 with h5 | h5
  · exact .inl h5
  · exact k5.imp (fun hk => h5.trans hk) fun hk => h5.trans hk

theorem of_alike (h : Alike b b') : Thinned id b b' := by
  intro s c' hc'
  obtain ⟨c, hc, heq⟩ := h.carrier.get hc'
  simp only [Carrier.pipe, Prod.mk.injEq] at heq
  exact ⟨c, hc, heq.1.symm, heq.2.1.symm, fun e he => heq.2.2.2 ▸ he,
    fun id' _ => Carrier.entries_of_queues heq.2.2.1.symm id', .inr (Carrier.entries_of_queues heq.2.2.1.symm id)⟩

theorem of_carriers (h : b'.carriers = b.carriers) : Thinned id b b' := by
  intro s c' hc'
  unfold Broker.carrierOf at hc'
  rw [h] at hc'
  exact ⟨c', hc', rfl, rfl, fun _ he => he, fun _ _ => rfl, .inr rfl⟩

theorem setCarrier {f : Carrier → Carrier} (b : Broker) (s : Nat)
    (hf : ∀ c, (f c).serial = c.serial ∧ (f c).attached = c.attached ∧ (f c).transportId = c.transportId ∧
      (∀ e ∈ (f c).controlQueue, e ∈ c.controlQueue) ∧ (∀ id', id' ≠ id → (f c).entries id' = c.entries id') ∧
      ((f c).entries id = [] ∨ (f c).entries id = c.entries id)) : Thinned id b (b.setCarrier s f) := by
  intro x c' hc'
  rcases carrierOf_setCarrier_cases hc' (fun c => (hf c).1) with ⟨_, hc₀⟩ | ⟨rfl, c₀, hc₀, rfl⟩
  · exact ⟨c', hc₀, rfl, rfl, fun _ he => he, fun _ _ => rfl, .inr rfl⟩
  · exact ⟨c₀, hc₀, (hf c₀).2⟩

theorem withoutData (b : Broker) (s id : Nat) : Thinned id b (b.setCarrier s fun c => c.withoutData id) := by
  refine setCarrier b s fun c => ⟨(c.face_withoutData id).1, congrArg CarrierFace.attached (c.face_withoutData id).2,
    congrArg CarrierFace.transportId (c.face_withoutData id).2, fun e he => ?_, fun id' hid => ?_, .inl ?_⟩
  · have hq : (c.withoutData id).controlQueue = c.controlQueue := by
      unfold Carrier.withoutData
      split
      · rfl
      · exact (Carrier.queues_invalidateIfEmpty _).2.1
    exact hq ▸ he
  · rw [Carrier.entries_withoutData, if_neg hid]
  · rw [Carrier.entries_withoutData, if_pos rfl]

theorem withoutControl (b : Broker) (s id : Nat) : Thinned id b (b.discardQueuedRouteControl s id) := by
  have hq : ∀ c : Carrier, (c.withoutControl id).dataQueues = c.dataQueues := fun c => (Carrier.queues_invalidateIfEmpty _).1
  refine setCarrier b s fun c => ⟨(c.face_withoutControl id).1, congrArg CarrierFace.attached (c.face_withoutControl id).2,
    congrArg CarrierFace.transportId (c.face_withoutControl id).2, fun e he => ?_,
    fun id' _ => Carrier.entries_of_queues (hq c) id', .inr (Carrier.entries_of_queues (hq c) id)⟩
  have hctl : (c.withoutControl id).controlQueue = c.controlQueue.filter fun e => e.route != some id :=
    (Carrier.queues_invalidateIfEmpty _).2.1
  rw [hctl] at he
  exact (List.mem_filter.mp he).1

theorem discardData (b : Broker) {c : Carrier} (hc : b.carrierOf c.serial = some c) (id : Nat) :
    Thinned id b (b.discardQueuedRouteData c id) ∧
      ∀ c', (b.discardQueuedRouteData c id).carrierOf c.serial = some c' → c'.entries id = [] := by
  unfold Broker.discardQueuedRouteData
  cases hq : c.dataQueue id with
  | none =>
    refine ⟨of_alike (.refl b), fun c' hc' => ?_⟩
    obtain rfl := Option.some.inj (hc.symm.trans hc')
    exact Carrier.entries_none hq
  | some q =>
    refine ⟨(withoutData b c.serial id).trans (of_alike (.setRoute _ _ (by exact fun _ => ⟨rfl, rfl⟩))), fun c' hc' => ?_⟩
    have heq := carrierOf_setCarrier_at hc (f := fun c => c.withoutData id) fun c => (c.face_withoutData id).1
    obtain rfl := Option.some.inj (heq.symm.trans hc')
    rw [Carrier.entries_withoutData, if_pos rfl]

theorem nil (h : Thinned id b b') {s : Nat} (hb : ∀ c, b.carrierOf s = some c → c.entries id = []) :
    ∀ c, b'.carrierOf s = some c → c.entries id = [] := by
  intro c' hc'
  obtain ⟨c, hc, _, _, _, _, h5⟩ := h s c' hc'
  rcases h5 with h5 | h5
  · exact h5
  · rw [h5, hb c hc]

end Thinned

/-- **A route stops being open**: it is closing or gone, and what was queued for it on either side is gone. -/
structure Ended (r : Route) (b b' : Broker) : Prop where
  thinned : Thinned r.routeId b b'
  empty : ∀ s c', b'.carrierOf s = some c' → c'.attached = true → c'.transportId = r.carrierTransportId →
    c'.entries r.routeId = []
  routes : ∀ id, id ≠ r.routeId → (b'.routeOf id).map Route.pipe = (b.routeOf id).map Route.pipe
  route : ∀ r', b'.routeOf r.routeId = some r' → r'.status = .closing ∧
    (r'.connectionId, r'.routeFence, r'.carrierTransportId, r'.nextClientToHostSeq, r'.expectedHostToClientSeq) =
      (r.connectionId, r.routeFence, r.carrierTransportId, r.nextClientToHostSeq, r.expectedHostToClientSeq)
  clients : ∀ k, k ≠ r.connectionId → (b'.clientAt k).map Client.pipe = (b.clientAt k).map Client.pipe
  client : ∀ c, b'.clientAt r.connectionId = some c → c.queue = []
  trace : b'.trace = b.trace
  fresh : b'.fresh = b.fresh

theorem discardData_routes (c : Carrier) (id : Nat) (b : Broker) :
    Looks Route.pipe b.routeOf (b.discardQueuedRouteData c id).routeOf ∧
      (b.discardQueuedRouteData c id).clients = b.clients ∧ (b.discardQueuedRouteData c id).trace = b.trace ∧
      (b.discardQueuedRouteData c id).fresh = b.fresh := by
  unfold Broker.discardQueuedRouteData
  split
  · exact ⟨.refl _, rfl, rfl, rfl⟩
  · exact ⟨.update (by exact fun _ => rfl) (by exact fun _ _ => rfl), rfl, rfl, rfl⟩

theorem releaseHostToClient_rest (r : Route) (entries : List QueuedClientFrame) (b : Broker) :
    (b.releaseHostToClient r entries).clients = b.clients ∧ (b.releaseHostToClient r entries).trace = b.trace ∧
      (b.releaseHostToClient r entries).fresh = b.fresh := by
  unfold Broker.releaseHostToClient
  dsimp only
  split <;> exact ⟨rfl, rfl, rfl⟩

theorem Ended.close {D : List Nat} (hs : Sound D b) {c : Carrier} {r : Route} (withControl : Bool) (hon : On b c r) :
    Ended r b (b.closeRoute c r withControl) := by
  obtain ⟨thin₁, nil₁⟩ := Thinned.discardData b hon.carrier r.routeId
  obtain ⟨look₁, cl₁, tr₁, fr₁⟩ := discardData_routes c r.routeId b
  -- the queued control of a fenced route
  have hcontrol : ∃ b₂, (if withControl then (b.discardQueuedRouteData c r.routeId).discardQueuedRouteControl c.serial r.routeId
      else b.discardQueuedRouteData c r.routeId) = b₂ ∧ Thinned r.routeId (b.discardQueuedRouteData c r.routeId) b₂ ∧
      b₂.routes = (b.discardQueuedRouteData c r.routeId).routes ∧ b₂.clients = (b.discardQueuedRouteData c r.routeId).clients ∧
      b₂.trace = (b.discardQueuedRouteData c r.routeId).trace ∧ b₂.fresh = (b.discardQueuedRouteData c r.routeId).fresh := by
    split
    · exact ⟨_, rfl, .withoutControl _ c.serial r.routeId, rfl, rfl, rfl, rfl⟩
    · exact ⟨_, rfl, .of_alike (.refl _), rfl, rfl, rfl, rfl⟩
  obtain ⟨b₂, hb₂, thin₂, ro₂, cl₂, tr₂, fr₂⟩ := hcontrol
  unfold Broker.closeRoute
  dsimp only
  rw [hb₂]
  -- what the client holds
  have hclient : Thinned r.routeId b₂ (b₂.discardQueuedClientData r) ∧
      Looks Route.pipe b₂.routeOf (b₂.discardQueuedClientData r).routeOf ∧
      (∀ k, k ≠ r.connectionId → (b₂.discardQueuedClientData r).clientAt k = b₂.clientAt k) ∧
      (∀ k, (b₂.discardQueuedClientData r).clientAt r.connectionId = some k → k.queue = []) ∧
      (b₂.discardQueuedClientData r).trace = b₂.trace ∧ (b₂.discardQueuedClientData r).fresh = b₂.fresh := by
    unfold Broker.discardQueuedClientData
    split
    · next hnone =>
      exact ⟨.of_alike (.refl _), .refl _, fun _ _ => rfl, fun k hk => absurd (hnone.symm.trans hk) (by simp), rfl, rfl⟩
    · next k hk =>
      have ha := Alike.releaseHostToClient r k.queue b₂
      obtain ⟨rc, rt, rf⟩ := releaseHostToClient_rest r k.queue b₂
      have hat : ∀ x, (b₂.releaseHostToClient r k.queue).clientAt x = b₂.clientAt x := fun x => by
        unfold Broker.clientAt
        rw [rc]
      refine ⟨(Thinned.of_alike ha).trans (.of_carriers rfl), ha.route, fun x hx => ?_, fun x hx => ?_, rt, rf⟩
      · exact (clientAt_setClient_ne (by exact fun _ => rfl) hx).trans (hat x)
      · rw [clientAt_setClient_at ((hat _).trans hk) (by exact fun _ => rfl)] at hx
        obtain rfl := Option.some.inj hx
        rfl
  obtain ⟨thin₃, look₃, ne₃, at₃, tr₃, fr₃⟩ := hclient
  have hthin : Thinned r.routeId b (b₂.discardQueuedClientData r) := (thin₁.trans thin₂).trans thin₃
  have hlook : Looks Route.pipe b.routeOf (b₂.discardQueuedClientData r).routeOf := by
    refine look₁.trans (Looks.trans ?_ look₃)
    intro k
    unfold Broker.routeOf
    rw [ro₂]
  refine ⟨hthin, fun s c' hc' hatt htr => ?_, fun id hid => ?_, fun r' hr' => ?_, fun k hk => ?_, at₃, ?_, ?_⟩
  · obtain ⟨c₀, hc₀, h1, h2, _, _, _⟩ := hthin s c' hc'
    obtain ⟨rfl, _⟩ := hs.same_carrier hc₀ hon.carrier (h1 ▸ hatt) hon.attached (h2.symm.trans (htr.trans hon.transport.symm))
    exact (thin₂.trans thin₃).nil nil₁ c' hc'
  · rw [routeOf_setRoute_ne (by exact fun _ => rfl) hid]
    exact hlook id
  · rcases routeOf_setRoute_cases hr' (by exact fun _ => rfl) with ⟨hne, _⟩ | ⟨_, r₀, hr₀, rfl⟩
    · exact absurd rfl hne
    · obtain ⟨r₁, hr₁, heq⟩ := hlook.get hr₀
      obtain rfl := Option.some.inj (hon.route.symm.trans hr₁)
      simp only [Route.pipe, Prod.mk.injEq] at heq
      exact ⟨rfl, by simp [Route.fenced, heq]⟩
  · show ((b₂.discardQueuedClientData r).clientAt k).map _ = _
    rw [ne₃ k hk]
    unfold Broker.clientAt
    rw [cl₂, cl₁]
  · exact tr₃.trans (tr₂.trans tr₁)
  · exact fr₃.trans (fr₂.trans fr₁)

theorem Ended.drop {D : List Nat} (hs : Sound D b) {r : Route} (hr : b.routeOf r.routeId = some r) : Ended r b (b.dropRoute r) := by
  -- what the carrier holds
  have hcarrier : Thinned r.routeId b (Broker.dropFromCarrier r b) ∧
      (∀ s c', (Broker.dropFromCarrier r b).carrierOf s = some c' → c'.attached = true →
        c'.transportId = r.carrierTransportId → c'.entries r.routeId = []) ∧
      Looks Route.pipe b.routeOf (Broker.dropFromCarrier r b).routeOf ∧
      (Broker.dropFromCarrier r b).clients = b.clients ∧ (Broker.dropFromCarrier r b).trace = b.trace ∧
      (Broker.dropFromCarrier r b).fresh = b.fresh := by
    unfold Broker.dropFromCarrier
    split
    · next hnone =>
      refine ⟨.of_carriers rfl, fun s c' hc' hatt htr => ?_, .refl _, rfl, rfl, rfl⟩
      have hsome := hs.carrierAt_iff.mpr ⟨(serial_of_carrierOf hc').symm ▸ hc', hatt, htr⟩
      rw [hnone] at hsome
      cases hsome
    · next c hat =>
      obtain ⟨hc, hatt, htr⟩ := hs.carrierAt_iff.mp hat
      obtain ⟨thin₁, nil₁⟩ := Thinned.discardData b hc r.routeId
      obtain ⟨look₁, cl₁, tr₁, fr₁⟩ := discardData_routes c r.routeId b
      have thin₂ : Thinned r.routeId (b.discardQueuedRouteData c r.routeId)
          (((b.discardQueuedRouteData c r.routeId).discardQueuedRouteControl c.serial r.routeId).setCarrier c.serial fun c =>
            { c with routeIds := c.routeIds.erase r.routeId }) :=
        (Thinned.withoutControl _ c.serial r.routeId).trans (.of_alike (.setCarrier _ _ (by exact fun _ => ⟨rfl, rfl⟩)))
      refine ⟨thin₁.trans thin₂, fun s c' hc' hatt' htr' => ?_, look₁, cl₁, tr₁, fr₁⟩
      obtain ⟨c₀, hc₀, h1, h2, _, _, _⟩ := (thin₁.trans thin₂) s c' hc'
      obtain ⟨rfl, _⟩ := hs.same_carrier hc₀ hc (h1 ▸ hatt') hatt (h2.symm.trans (htr'.trans htr.symm))
      exact thin₂.nil nil₁ c' hc'
  obtain ⟨thin₁, empty₁, look₁, cl₁, tr₁, fr₁⟩ := hcarrier
  -- what the client holds, and the client
  have hclient : ∀ b₁ : Broker, Thinned r.routeId b₁ (Broker.dropFromClient r b₁) ∧
      Looks Route.pipe b₁.routeOf (Broker.dropFromClient r b₁).routeOf ∧
      (∀ k, k ≠ r.connectionId → (Broker.dropFromClient r b₁).clientAt k = b₁.clientAt k) ∧
      (Broker.dropFromClient r b₁).clientAt r.connectionId = none ∧
      (Broker.dropFromClient r b₁).trace = b₁.trace ∧ (Broker.dropFromClient r b₁).fresh = b₁.fresh := by
    intro b₁
    unfold Broker.dropFromClient
    split
    · next hnone => exact ⟨.of_carriers rfl, .refl _, fun _ _ => rfl, hnone, rfl, rfl⟩
    · next k _ =>
      dsimp only
      have ha := Alike.releaseHostToClient r (k.queue ++ k.inFlight.map InFlightClientFrame.toQueuedClientFrame) b₁
      obtain ⟨rc, rt, rf⟩ := releaseHostToClient_rest r (k.queue ++ k.inFlight.map InFlightClientFrame.toQueuedClientFrame) b₁
      refine ⟨(Thinned.of_alike ha).trans (.of_carriers rfl), ha.route, fun x hx => ?_, ?_, rt, rf⟩
      · show Keyed.find Client.connectionId x (Keyed.erase Client.connectionId r.connectionId _) = _
        rw [rc, Keyed.find_erase_ne hx]
        rfl
      · exact Keyed.find_erase_self
  obtain ⟨thin₂, look₂, ne₂, none₂, tr₂, fr₂⟩ := hclient (Broker.dropFromCarrier r b)
  refine ⟨(thin₁.trans thin₂).trans (.of_carriers rfl), fun s c' hc' hatt htr => ?_, fun id hid => ?_, fun r' hr' => ?_,
    fun k hk => ?_, fun k hk => ?_, tr₂.trans tr₁, fr₂.trans fr₁⟩
  · obtain ⟨c₁, hc₁, h1, h2, _, _, h5⟩ := thin₂ s c' hc'
    rcases h5 with h5 | h5
    · exact h5
    · rw [h5]
      exact empty₁ s c₁ hc₁ (h1 ▸ hatt) (h2 ▸ htr)
  · show (Keyed.find Route.routeId id (Keyed.erase Route.routeId r.routeId _)).map _ = _
    rw [Keyed.find_erase_ne hid]
    exact (look₁.trans look₂) id
  · have hgone : (b.dropRoute r).routeOf r.routeId = none := Keyed.find_erase_self
    rw [hgone] at hr'
    cases hr'
  · show ((Broker.dropFromClient r (Broker.dropFromCarrier r b)).clientAt k).map _ = _
    rw [ne₂ k hk]
    unfold Broker.clientAt
    rw [cl₁]
  · have hgone : (b.dropRoute r).clientAt r.connectionId = none := none₂
    rw [hgone] at hk
    cases hk

end

/-! ## Traces -/

/-- The trace is what it was, or has one event more that `p` does not care for. -/
def Grown (p : Event → Bool) (t t' : List Event) : Prop := t' = t ∨ ∃ e, p e = false ∧ t' = e :: t

theorem Grown.mem {p : Event → Bool} {t t' : List Event} (h : Grown p t t') {e : Event} (he : e ∈ t) : e ∈ t' := by
  rcases h with rfl | ⟨_, _, rfl⟩
  · exact he
  · exact List.mem_cons_of_mem _ he

theorem Grown.mem_of {p : Event → Bool} {t t' : List Event} (h : Grown p t t') {e : Event} (he : e ∈ t') (hp : p e = true) :
    e ∈ t := by
  rcases h with rfl | ⟨x, hx, rfl⟩
  · exact he
  · rcases List.mem_cons.mp he with rfl | he
    · rw [hx] at hp
      cases hp
    · exact he

/-- **Every route was made once**, under the name and for the connection that it has. -/
structure Told (b : Broker) : Prop where
  old : ∀ e ∈ b.trace, ∀ id, e.about = some id → id < b.fresh
  created : ∀ id r, b.routeOf id = some r → .created id r.connectionId r.routeFence ∈ b.trace
  once : ∀ id k f k' f', .created id k f ∈ b.trace → .created id k' f' ∈ b.trace → k = k' ∧ f = f'

def Event.making : Event → Bool
  | .created .. => true
  | _ => false

theorem Told.keep {b b' : Broker} (h : Told b)
    (hr : ∀ id r', b'.routeOf id = some r' → ∃ r, b.routeOf id = some r ∧ r.connectionId = r'.connectionId ∧
      r.routeFence = r'.routeFence)
    (ht : b'.trace = b.trace ∨ ∃ e, e.making = false ∧ (∀ id, e.about = some id → id < b.fresh) ∧ b'.trace = e :: b.trace)
    (hf : b.fresh ≤ b'.fresh) : Told b' := by
  have hgrown : Grown Event.making b.trace b'.trace := ht.imp_right fun ⟨e, he, _, heq⟩ => ⟨e, he, heq⟩
  refine ⟨fun e he id hid => ?_, fun id r' hr' => ?_, fun id k f k' f' h₁ h₂ => ?_⟩
  · rcases ht with ht | ⟨x, _, hx, ht⟩
    · exact Nat.lt_of_lt_of_le (h.old e (ht ▸ he) id hid) hf
    · rw [ht] at he
      rcases List.mem_cons.mp he with rfl | he
      · exact Nat.lt_of_lt_of_le (hx id hid) hf
      · exact Nat.lt_of_lt_of_le (h.old e he id hid) hf
  · obtain ⟨r, hrof, h1, h2⟩ := hr id r' hr'
    rw [← h1, ← h2]
    exact hgrown.mem (h.created id r hrof)
  · exact h.once id k f k' f' (hgrown.mem_of h₁ rfl) (hgrown.mem_of h₂ rfl)

theorem Told.looks {b b' : Broker} (h : Told b) (hr : Looks Route.pipe b.routeOf b'.routeOf)
    (ht : b'.trace = b.trace ∨ ∃ e, e.making = false ∧ (∀ id, e.about = some id → id < b.fresh) ∧ b'.trace = e :: b.trace)
    (hf : b.fresh ≤ b'.fresh) : Told b' := by
  refine h.keep (fun id r' hr' => ?_) ht hf
  obtain ⟨r, hrof, heq⟩ := hr.get hr'
  simp only [Route.pipe, Prod.mk.injEq] at heq
  exact ⟨r, hrof, heq.1.1, heq.1.2.1⟩

end Relay
end TmuxWorktree

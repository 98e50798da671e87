import TmuxWorktree.Relay.Lossless
/-!
# Correlation — requests and responses on a route

A request that goes on a route is noted in `inFlightRequestIds`, and a response is taken only if it answers a noted one.
What is noted is what the trace says: the requests of the forwarded frames that no admitted frame has answered since
(`outstanding`).  So a response always answers a request of its own route, and no request is answered twice.
-/
namespace TmuxWorktree
namespace Relay

/-! ## Requests and responses in the trace -/

def Config.requests (C : Config) (bytes : Bytes) : List Nat :=
  match C.codec.decodePublic bytes with
  | some f => if f.kind = .request then f.requestId.toList else []
  | none => []

def Config.answers (C : Config) (bytes : Bytes) : List Nat :=
  match C.codec.decodePublic bytes with
  | some f => if f.kind = .response then f.requestId.toList else []
  | none => []

/-- **The requests on a route that are not answered**, newest first. -/
def outstanding (C : Config) (id : Nat) : List Event → List Nat
  | [] => []
  | .forwarded route _ bytes :: t => if route = id then C.requests bytes ++ outstanding C id t else outstanding C id t
  | .admitted route _ bytes _ :: t =>
    if route = id then (outstanding C id t).filter (· ∉ C.answers bytes) else outstanding C id t
  | _ :: t => outstanding C id t

def Event.asks (C : Config) (id q : Nat) : Event → Bool
  | .forwarded route _ bytes => route = id && q ∈ C.requests bytes
  | _ => false

def Event.answers (C : Config) (id q : Nat) : Event → Bool
  | .admitted route _ bytes _ => route = id && q ∈ C.answers bytes
  | _ => false

def asked (C : Config) (id q : Nat) (t : List Event) : Nat := t.countP (Event.asks C id q)

def answered (C : Config) (id q : Nat) (t : List Event) : Nat := t.countP (Event.answers C id q)

/-- **What may follow a trace**: a request that is not on the way yet, while fewer than the limit are; a response to one that
is on the way. -/
def Fair (C : Config) (t : List Event) : Event → Prop
  | .forwarded id _ bytes => ∀ f, C.codec.decodePublic bytes = some f → f.kind = .request →
      f.requestId.any (· ∈ outstanding C id t) = false ∧ (outstanding C id t).length < maxInFlightRequestsPerRoute
  | .admitted id _ bytes _ => ∀ f, C.codec.decodePublic bytes = some f → f.kind = .response →
      f.requestId.any (· ∈ outstanding C id t) = true
  | _ => True

/-- Every event of the trace could follow the ones before it. -/
def Orderly (C : Config) (t : List Event) : Prop := ∀ e older, e :: older <:+ t → Fair C older e

def Event.traffic : Event → Bool
  | .forwarded .. => true
  | .admitted .. => true
  | _ => false

section
variable {C : Config} {id : Nat} {t t' : List Event} {e : Event}

theorem Orderly.nil (C : Config) : Orderly C [] := fun e older h => by
  have := List.eq_nil_of_suffix_nil h
  cases this

theorem Orderly.cons (h : Orderly C t) (he : Fair C t e) : Orderly C (e :: t) := by
  intro x older hx
  rcases List.suffix_cons_iff.mp hx with heq | hx
  · cases heq
    exact he
  · exact h x older hx

theorem Orderly.tail (h : Orderly C (e :: t)) : Orderly C t := fun x older hx =>
  h x older (hx.trans (List.suffix_cons ..))

theorem outstanding_of_idle (he : e.traffic = false) : outstanding C id (e :: t) = outstanding C id t := by
  cases e <;> first | rfl | cases he

theorem Orderly.idle (h : Orderly C t) (he : e.traffic = false) : Orderly C (e :: t) := by
  refine h.cons ?_
  cases e <;> first | exact trivial | cases he

theorem outstanding_grown (h : Grown Event.traffic t t') : outstanding C id t' = outstanding C id t := by
  rcases h with rfl | ⟨e, he, rfl⟩
  · rfl
  · exact outstanding_of_idle he

theorem Orderly.grown (h : Orderly C t) (ht : Grown Event.traffic t t') : Orderly C t' := by
  rcases ht with rfl | ⟨e, he, rfl⟩
  · exact h
  · exact h.idle he

theorem outstanding_unheard (h : ∀ e ∈ t, e.about ≠ some id) : outstanding C id t = [] := by
  induction t with
  | nil => rfl
  | cons e t ih =>
    have hne := h e List.mem_cons_self
    have ht := ih fun x hx => h x (List.mem_cons_of_mem _ hx)
    cases e with
    | forwarded route seq bytes =>
      have : route ≠ id := fun heq => hne (by rw [heq]; rfl)
      simp only [outstanding, if_neg this, ht]
    | admitted route seq bytes out =>
      have : route ≠ id := fun heq => hne (by rw [heq]; rfl)
      simp only [outstanding, if_neg this, ht]
    | _ => exact ht

theorem requests_length (C : Config) (bytes : Bytes) : (C.requests bytes).length ≤ 1 := by
  unfold Config.requests
  split
  · next f _ => split <;> cases f.requestId <;> simp
  · simp

theorem Fair.request {route seq : Nat} {bytes : Bytes} (h : Fair C t (.forwarded route seq bytes)) {q : Nat}
    (hq : q ∈ C.requests bytes) :
    q ∉ outstanding C route t ∧ (outstanding C route t).length < maxInFlightRequestsPerRoute := by
  unfold Config.requests at hq
  split at hq
  · next f hf =>
    split at hq
    · next hk =>
      obtain ⟨hno, hlen⟩ := h f hf hk
      rw [Option.mem_toList] at hq
      rw [hq] at hno
      exact ⟨by simpa using hno, hlen⟩
    · cases hq
  · cases hq

theorem Fair.answer {route seq : Nat} {bytes : Bytes} {out : Option Bytes} (h : Fair C t (.admitted route seq bytes out))
    {q : Nat} (hq : q ∈ C.answers bytes) : q ∈ outstanding C route t := by
  unfold Config.answers at hq
  split at hq
  · next f hf =>
    split at hq
    · next hk =>
      have hyes := h f hf hk
      rw [Option.mem_toList] at hq
      rw [hq] at hyes
      simpa using hyes
    · cases hq
  · cases hq

/-- **The requests on the way are different, at most as many as the limit, and the ones that were asked once more than
answered.** -/
theorem Orderly.settled (h : Orderly C t) (id : Nat) : (outstanding C id t).Nodup ∧
    (outstanding C id t).length ≤ maxInFlightRequestsPerRoute ∧
    ∀ q, asked C id q t = answered C id q t + if q ∈ outstanding C id t then 1 else 0 := by
  induction t with
  | nil => exact ⟨List.nodup_nil, Nat.zero_le _, fun q => by simp [asked, answered, outstanding]⟩
  | cons e t ih =>
    obtain ⟨hnd, hlen, hcount⟩ := ih h.tail
    have hfair : Fair C t e := h e t (List.suffix_refl _)
    have hidle : e.traffic = false → (outstanding C id (e :: t)).Nodup ∧
        (outstanding C id (e :: t)).length ≤ maxInFlightRequestsPerRoute ∧
        ∀ q, asked C id q (e :: t) = answered C id q (e :: t) + if q ∈ outstanding C id (e :: t) then 1 else 0 := by
      intro he
      rw [outstanding_of_idle he]
      refine ⟨hnd, hlen, fun q => ?_⟩
      have h1 : Event.asks C id q e = false := by cases e <;> first | rfl | cases he
      have h2 : Event.answers C id q e = false := by cases e <;> first | rfl | cases he
      unfold asked answered at *
      rw [List.countP_cons_of_neg (by simp [h1]), List.countP_cons_of_neg (by simp [h2])]
      exact hcount q
    cases e with
    | forwarded route seq bytes =>
      have hask : ∀ q, asked C id q (.forwarded route seq bytes :: t) =
          asked C id q t + if route = id ∧ q ∈ C.requests bytes then 1 else 0 := fun q => by
        unfold asked
        rw [List.countP_cons]
        simp [Event.asks]
      have hans : ∀ q, answered C id q (.forwarded route seq bytes :: t) = answered C id q t := fun q => by
        unfold answered
        rw [List.countP_cons_of_neg (by simp [Event.answers])]
      by_cases hid : route = id
      · subst hid
        rw [show outstanding C route (.forwarded route seq bytes :: t) = C.requests bytes ++ outstanding C route t from
          if_pos rfl]
        refine ⟨List.nodup_append.mpr ⟨?_, hnd, fun a ha x hx heq => (hfair.request ha).1 (heq ▸ hx)⟩, ?_, fun q => ?_⟩
        · have hle := requests_length C bytes
          match hl : C.requests bytes with
          | [] => exact List.nodup_nil
          | [a] => simp
          | a :: x :: l => rw [hl] at hle; simp at hle
        · match hl : C.requests bytes with
          | [] => exact hlen
          | a :: l =>
            have hlt := (hfair.request (q := a) (by rw [hl]; exact List.mem_cons_self)).2
            have hle := requests_length C bytes
            rw [hl] at hle
            simp only [List.length_append, List.length_cons] at hle ⊢
            omega
        · rw [hask, hans, hcount]
          by_cases hq : q ∈ C.requests bytes
          · have hno := (hfair.request hq).1
            simp [hq, hno]
          · simp [hq]
      · rw [show outstanding C id (.forwarded route seq bytes :: t) = outstanding C id t from if_neg hid]
        exact ⟨hnd, hlen, fun q => by rw [hask, hans, hcount]; simp [hid]⟩
    | admitted route seq bytes out =>
      have hask : ∀ q, asked C id q (.admitted route seq bytes out :: t) = asked C id q t := fun q => by
        unfold asked
        rw [List.countP_cons_of_neg (by simp [Event.asks])]
      have hans : ∀ q, answered C id q (.admitted route seq bytes out :: t) =
          answered C id q t + if route = id ∧ q ∈ C.answers bytes then 1 else 0 := fun q => by
        unfold answered
        rw [List.countP_cons]
        simp [Event.answers]
      by_cases hid : route = id
      · subst hid
        rw [show outstanding C route (.admitted route seq bytes out :: t) =
          (outstanding C route t).filter (· ∉ C.answers bytes) from if_pos rfl]
        refine ⟨hnd.filter _, Nat.le_trans (List.length_filter_le _ _) hlen, fun q => ?_⟩
        rw [hask, hans, hcount]
        by_cases hq : q ∈ C.answers bytes
        · simp [hq, hfair.answer hq]
        · simp [hq]
      · rw [show outstanding C id (.admitted route seq bytes out :: t) = outstanding C id t from if_neg hid]
        exact ⟨hnd, hlen, fun q => by rw [hask, hans, hcount]; simp [hid]⟩
    | _ => exact hidle rfl

end

/-! ## What a move does to the routes -/

/-- **The routes are routes that were there**, with the same requests on the way and the same next number. -/
def Unmoved (b b' : Broker) : Prop := ∀ r' ∈ b'.routes, ∃ r ∈ b.routes, r'.routeId = r.routeId ∧
  r'.inFlightRequestIds = r.inFlightRequestIds ∧ r'.nextClientToHostSeq = r.nextClientToHostSeq

namespace Unmoved

variable {b b' b'' : Broker}

theorem of_routes (h : b'.routes = b.routes) : Unmoved b b' := fun r' hr' => ⟨r', h ▸ hr', rfl, rfl, rfl⟩

theorem trans (h : Unmoved b b') (h' : Unmoved b' b'') : Unmoved b b'' := by
  intro r'' hr''
  obtain ⟨r', hr', h1, h2, h3⟩ := h' r'' hr''
  obtain ⟨r, hr, k1, k2, k3⟩ := h r' hr'
  exact ⟨r, hr, h1.trans k1, h2.trans k2, h3.trans k3⟩

theorem of_map {g : Route → Route} (h : b'.routes = b.routes.map g)
    (hg : ∀ r, (g r).routeId = r.routeId ∧ (g r).inFlightRequestIds = r.inFlightRequestIds ∧
      (g r).nextClientToHostSeq = r.nextClientToHostSeq) : Unmoved b b' := by
  intro r' hr'
  rw [h] at hr'
  obtain ⟨r, hr, rfl⟩ := List.mem_map.mp hr'
  exact ⟨r, hr, hg r⟩

theorem setRoute (b : Broker) {id : Nat} {g : Route → Route}
    (hg : ∀ r, (g r).routeId = r.routeId ∧ (g r).inFlightRequestIds = r.inFlightRequestIds ∧
      (g r).nextClientToHostSeq = r.nextClientToHostSeq) : Unmoved b (b.setRoute id g) :=
  of_map rfl fun r => by
    split
    · exact hg r
    · exact ⟨rfl, rfl, rfl⟩

theorem of_part (part : Route → Route) (hp : ∀ r, (part r).routeId = r.routeId ∧
      (part r).inFlightRequestIds = r.inFlightRequestIds ∧ (part r).nextClientToHostSeq = r.nextClientToHostSeq)
    (h : b'.routes.map part = b.routes.map part) : Unmoved b b' := by
  intro r' hr'
  have hmem : part r' ∈ b.routes.map part := h ▸ List.mem_map_of_mem hr'
  obtain ⟨r, hr, heq⟩ := List.mem_map.mp hmem
  exact ⟨r, hr, by rw [← (hp r').1, ← (hp r).1, heq], by rw [← (hp r').2.1, ← (hp r).2.1, heq],
    by rw [← (hp r').2.2, ← (hp r).2.2, heq]⟩

theorem of_core (h : b'.routes.map Route.core = b.routes.map Route.core) : Unmoved b b' :=
  of_part Route.core (fun _ => ⟨rfl, rfl, rfl⟩) h

theorem of_quiet (h : Quiet b b') : Unmoved b b' := of_part Route.bare (fun _ => ⟨rfl, rfl, rfl⟩) h.routes

theorem closeRoute (c : Carrier) (r : Route) (withControl : Bool) (b : Broker) :
    Unmoved b (b.closeRoute c r withControl) := by
  have hdata := of_core (core_discardQueuedRouteData c r.routeId b)
  unfold Broker.closeRoute
  dsimp only
  refine Unmoved.trans ?_ (.setRoute _ fun _ => ⟨rfl, rfl, rfl⟩)
  split
  · exact (hdata.trans (.of_routes rfl)).trans (.of_core (core_discardQueuedClientData r _))
  · exact hdata.trans (.of_core (core_discardQueuedClientData r _))

theorem dropRoute (r : Route) (b : Broker) : Unmoved b (b.dropRoute r) := by
  have hcarrier : Unmoved b (Broker.dropFromCarrier r b) := by
    unfold Broker.dropFromCarrier
    split
    · exact .of_routes rfl
    · next c _ => exact (of_core (core_discardQueuedRouteData c r.routeId b)).trans (.of_routes rfl)
  have hclient : ∀ b₁ : Broker, Unmoved b₁ (Broker.dropFromClient r b₁) := by
    intro b₁
    unfold Broker.dropFromClient
    split
    · exact .of_routes rfl
    · exact (of_core (core_releaseHostToClient r _ b₁)).trans (.of_routes rfl)
  intro r' hr'
  obtain ⟨r₁, hr₁, h⟩ := (hcarrier.trans (hclient _)) r' (Keyed.mem_erase_iff.mp hr').1
  exact ⟨r₁, hr₁, h⟩

theorem discardCarrier (s : Nat) (b : Broker) : Unmoved b (b.discardCarrier s) := by
  have hfold : ∀ {g : Broker → InFlightCarrierFrame → Broker}, (∀ b e, Unmoved b (g b e)) →
      ∀ (l : List InFlightCarrierFrame) (b : Broker), Unmoved b (l.foldl g b) := by
    intro g hg l
    induction l with
    | nil => exact fun b => .of_routes rfl
    | cons e l ih => exact fun b => (hg b e).trans (ih _)
  unfold Broker.discardCarrier
  split
  · exact .of_routes rfl
  · next c _ =>
    refine (hfold (fun b e => ?_) c.inFlight b).trans (.of_routes rfl)
    split
    · exact .setRoute b fun _ => ⟨rfl, rfl, rfl⟩
    · exact .of_routes rfl

theorem acknowledge (s : Nat) (e : InFlightCarrierFrame) (b : Broker) : Unmoved b (b.acknowledge s e) := by
  unfold Broker.acknowledge
  dsimp only
  split
  · exact (of_routes rfl).trans (.setRoute _ fun _ => ⟨rfl, rfl, rfl⟩)
  · exact .of_routes rfl

theorem dispatch (s : Nat) (e : QueuedCarrierFrame) (b : Broker) : Unmoved b (b.dispatch s e) := by
  unfold Broker.dispatch
  dsimp only
  split
  · next id seq _ _ =>
    have hnumber : Unmoved b (b.setRoute id fun r => { r with lastClientToHostDispatchedSeq := seq }) :=
      .setRoute b (by exact fun _ => ⟨rfl, rfl, rfl⟩)
    exact hnumber.trans (.of_routes rfl)
  · exact .of_routes rfl

end Unmoved

/-- The routes after a frame: one of them got `g`. -/
structure Noted (b b' : Broker) (r : Route) (g : List Nat → List Nat) (e : Event) : Prop where
  route : b.routeOf r.routeId = some r
  self : ∀ r' ∈ b'.routes, r'.routeId = r.routeId → r'.inFlightRequestIds = g r.inFlightRequestIds
  other : ∀ r' ∈ b'.routes, r'.routeId ≠ r.routeId → r' ∈ b.routes
  trace : b'.trace = e :: b.trace

/-- **What a move says of requests**: nothing; or a route is made; or a frame goes on a route, one way or the other. -/
inductive Traffic (C : Config) (P : Permits) (b b' : Broker) : Prop
  | still (routes : Unmoved b b') (trace : Grown Event.traffic b.trace b'.trace)
  | opened (grow : P.grow) (r : Route) (new : r.routeId = b.fresh) (none : r.inFlightRequestIds = [])
      (routes : b'.routes = b.routes ++ [r]) (trace : Grown Event.traffic b.trace b'.trace)
  | asked (data : P.data) (r : Route) (seq : Nat) (bytes : Bytes)
      (noted : Noted b b' r (C.requests bytes ++ ·) (.forwarded r.routeId seq bytes))
      (fair : ∀ f, C.codec.decodePublic bytes = some f → f.kind = .request →
        f.requestId.any (· ∈ r.inFlightRequestIds) = false ∧ r.inFlightRequestIds.length < maxInFlightRequestsPerRoute)
  | answered (data : P.data) (r : Route) (seq : Nat) (bytes : Bytes) (out : Option Bytes)
      (noted : Noted b b' r (·.filter (· ∉ C.answers bytes)) (.admitted r.routeId seq bytes out))
      (fair : ∀ f, C.codec.decodePublic bytes = some f → f.kind = .response →
        f.requestId.any (· ∈ r.inFlightRequestIds) = true)

section
variable {C : Config} {P : Permits} {D D' : List Nat} {b b' : Broker}

theorem mem_setRoute_ne {id : Nat} {g : Route → Route} (hg : ∀ r, (g r).routeId = r.routeId) {r' : Route}
    (hr' : r' ∈ (b.setRoute id g).routes) (hne : r'.routeId ≠ id) : r' ∈ b.routes := by
  rcases Keyed.mem_update_iff.mp hr' with ⟨r, hr, hid, rfl⟩ | ⟨hr, _⟩
  · exact absurd ((hg r).trans hid) hne
  · exact hr

theorem mem_setRoute_self (hn : (b.routes.map Route.routeId).Nodup) {id : Nat} {g : Route → Route}
    (hg : ∀ r, (g r).routeId = r.routeId) {r r' : Route} (hr : b.routeOf id = some r)
    (hr' : r' ∈ (b.setRoute id g).routes) (hid : r'.routeId = id) : r' = g r := by
  rcases Keyed.mem_update_iff.mp hr' with ⟨r₀, hr₀, hid₀, rfl⟩ | ⟨_, hne⟩
  · exact congrArg g (Keyed.eq_of_mem hn hr₀ (Keyed.mem_of_find hr) (hid₀.trans (Keyed.key_of_find hr).symm))
  · exact absurd hid hne

theorem noteRequest_requests {bytes : Bytes} {f : PublicFrame} (decoded : C.codec.decodePublic bytes = some f) (id : Nat)
    (b : Broker) : b.noteRequest id f =
      b.setRoute id fun r => { r with inFlightRequestIds := C.requests bytes ++ r.inFlightRequestIds } := by
  unfold Broker.noteRequest Config.requests
  rw [decoded]
  dsimp only
  split
  · rfl
  · show b = { b with routes := _ }
    rw [show Keyed.update Route.routeId id (fun r : Route => { r with inFlightRequestIds := [] ++ r.inFlightRequestIds })
      b.routes = b.routes from (List.map_congr_left fun r _ => by split <;> rfl).trans (List.map_id _)]

theorem filter_answers {bytes : Bytes} {f : PublicFrame} (decoded : C.codec.decodePublic bytes = some f) (l : List Nat) :
    (if f.kind = .response then l.filter (fun id => some id ≠ f.requestId) else l) = l.filter (· ∉ C.answers bytes) := by
  unfold Config.answers
  rw [decoded]
  dsimp only
  split
  · refine List.filter_congr fun q _ => ?_
    cases f.requestId <;> simp [eq_comm]
  · simp

theorem Noted.consumed {r : Route} {f : PublicFrame} {seq : Nat} {bytes : Bytes} {out : Option Bytes} (hs : Sound D b)
    (hr : b.routeOf r.routeId = some r) (decoded : C.codec.decodePublic bytes = some f)
    (hu : Unmoved (b.consumeHostFrame r.routeId f) b')
    (hother : ∀ r' ∈ b'.routes, r'.routeId ≠ r.routeId → r' ∈ b.routes)
    (trace : b'.trace = .admitted r.routeId seq bytes out :: b.trace) :
    Noted b b' r (·.filter (· ∉ C.answers bytes)) (.admitted r.routeId seq bytes out) := by
  refine ⟨hr, fun r' hr' hid => ?_, hother, trace⟩
  obtain ⟨r₁, hr₁, h1, h2, _⟩ := hu r' hr'
  have hnd : ((b.consumeHostFrame r.routeId f).routes.map Route.routeId).Nodup := by
    rw [show (b.consumeHostFrame r.routeId f).routes.map Route.routeId = b.routes.map Route.routeId from
      Keyed.keys_update (by exact fun _ h => h)]
    exact hs.routeIds
  have hof : (b.consumeHostFrame r.routeId f).routeOf r₁.routeId = some r₁ := Keyed.find_of_mem hnd hr₁
  rw [← h1, hid, routeOf_consume f hr] at hof
  rw [h2, ← Option.some.inj hof]
  exact filter_answers decoded _

theorem Move.traffic (m : Move C P D b D' b') (hs : Sound D b) : Traffic C P b b' := by
  have still : ∀ {b' : Broker}, Unmoved b b' → b'.trace = b.trace → Traffic C P b b' := fun hu ht => .still hu (.inl ht)
  have said : ∀ {b' : Broker} (e : Event), e.traffic = false → Unmoved b b' → b'.trace = e :: b.trace → Traffic C P b b' :=
    fun e he hu ht => .still hu (.inr ⟨e, he, ht⟩)
  cases m with
  | quiet hq => exact still (.of_quiet hq) hq.trace
  | mark => exact still (.of_routes rfl) rfl
  | unmark => exact still (.of_routes rfl) rfl
  | attach => exact still (.of_routes rfl) rfl
  | enroll => exact still (.of_routes rfl) rfl
  | rebase => exact still (.of_routes rfl) rfl
  | @activate _ _ c hello previous =>
    obtain ⟨hr, _, ht, _⟩ := activate_rest C c hello previous b
    exact still (.of_routes hr) ht
  | offline => exact still (.of_routes rfl) rfl
  | unregister => exact still (.of_routes rfl) rfl
  | forget => exact still (.of_routes rfl) rfl
  | retire => exact still (.of_routes rfl) rfl
  | @discard _ _ c => exact still (.discardCarrier c.serial b) (discardCarrier_rest c.serial b).2.2.1
  | detach => exact still (.of_routes rfl) rfl
  | @openRoute _ _ c connectionId a i connectorId grow =>
    exact .opened grow (b.newRoute c connectionId a i connectorId) rfl rfl rfl (.inr ⟨_, rfl, rfl⟩)
  | @drop _ _ r hr => exact still (.dropRoute r b) (Ended.drop hs hr).trace
  | welcome => exact still (.setRoute b (by exact fun _ => ⟨rfl, rfl, rfl⟩)) rfl
  | @close _ _ c r withControl hon => exact still (.closeRoute c r withControl b) (Ended.close hs withControl hon).trace
  | unbind => exact still (.of_routes rfl) rfl
  | control => exact still (.of_routes rfl) rfl
  | @forward _ _ c r f bytes data hon opened decoded admitted =>
    rw [noteRequest_requests decoded]
    have hpushed : (b.pushEntry c.serial r (Broker.dataEntry C r bytes) bytes).routeOf r.routeId = some
        { r with
          clientToHostBufferedBytes := r.clientToHostBufferedBytes + bytes.byteLength
          clientToHostFrames := r.clientToHostFrames + 1
          nextClientToHostSeq := r.nextClientToHostSeq + 1 } := routeOf_setRoute_at hon.route (by exact fun _ => rfl)
    have hnd : ((b.pushEntry c.serial r (Broker.dataEntry C r bytes) bytes).routes.map Route.routeId).Nodup := by
      rw [show (b.pushEntry c.serial r (Broker.dataEntry C r bytes) bytes).routes.map Route.routeId =
        b.routes.map Route.routeId from Keyed.keys_update (by exact fun _ h => h)]
      exact hs.routeIds
    refine .asked data r r.nextClientToHostSeq bytes ⟨hon.route, fun r' hr' hid => ?_, fun r' hr' hid => ?_, rfl⟩
      fun f' hf' hk => ?_
    · obtain rfl := mem_setRoute_self hnd (by exact fun _ => rfl) hpushed hr' hid
      rfl
    · exact mem_setRoute_ne (b := b) (by exact fun _ => rfl) (mem_setRoute_ne (by exact fun _ => rfl) hr' hid) hid
    · obtain rfl := Option.some.inj (decoded.symm.trans hf')
      exact admitted hk
  | @make _ _ c r made charged hon => exact said _ rfl (.setRoute b (by exact fun _ => ⟨rfl, rfl, rfl⟩)) rfl
  | @accept _ _ c r f bytes out data hon opened faithful decoded correlated =>
    refine .answered data r r.expectedHostToClientSeq bytes (some out) (.consumed hs hon.route decoded
      (.setRoute _ (by exact fun _ => ⟨rfl, rfl, rfl⟩)) (fun r' hr' hid => ?_) rfl) fun f' hf' hk => ?_
    · exact mem_setRoute_ne (b := b) (by exact fun _ => rfl) (mem_setRoute_ne (by exact fun _ => rfl) hr' hid) hid
    · obtain rfl := Option.some.inj (decoded.symm.trans hf')
      exact correlated hk
  | @consume _ _ c r f bytes data hon when decoded correlated =>
    refine .answered data r r.expectedHostToClientSeq bytes none (.consumed hs hon.route decoded
      (.of_routes rfl) (fun r' hr' hid => ?_) rfl) fun f' hf' hk => ?_
    · exact mem_setRoute_ne (b := b) (by exact fun _ => rfl) hr' hid
    · obtain rfl := Option.some.inj (decoded.symm.trans hf')
      exact correlated hk
  | @dispatchControl _ _ c e => exact said _ rfl ((Unmoved.dispatch c.serial e b).trans (.of_routes rfl)) (dispatch_trace c.serial e b)
  | @dispatchData _ _ c routeId e => exact said _ rfl ((Unmoved.dispatch c.serial e b).trans (.of_routes rfl)) (dispatch_trace c.serial e b)
  | skip => exact still (.of_routes rfl) rfl
  | @acknowledge _ _ c e => exact still (.acknowledge c.serial e b) (acknowledge_trace c.serial e b).1
  | hand => exact said _ rfl (.of_routes rfl) rfl
  | @received _ _ client r e =>
    exact still ((Unmoved.of_routes (b := b) rfl).trans (.of_core (core_releaseHostToClient r _ _)))
      (releaseHostToClient_rest r _ _).2.1
  | lost => exact still (.of_routes rfl) rfl
  | clock d => exact still (.setRoute b fun r => by cases d <;> exact ⟨rfl, rfl, rfl⟩) rfl
  | pause d => exact said _ rfl (.setRoute b fun r => by cases d <;> exact ⟨rfl, rfl, rfl⟩) rfl
  | resume d => exact said _ rfl (.setRoute b fun r => by cases d <;> exact ⟨rfl, rfl, rfl⟩) rfl
  | withdraw e =>
    unfold Broker.withdrawOptionalCapability
    split
    · exact still (.of_routes rfl) rfl
    · exact still (.of_map rfl fun r => by split <;> exact ⟨rfl, rfl, rfl⟩) rfl
  | violate => exact said _ rfl (.of_routes rfl) rfl

/-! ## What is noted is what is on the way -/

/-- **The requests noted on a route are the ones that the trace leaves unanswered**, and the trace is orderly. -/
structure Correlated (C : Config) (b : Broker) : Prop where
  noted : ∀ r ∈ b.routes, r.inFlightRequestIds = outstanding C r.routeId b.trace
  orderly : Orderly C b.trace

theorem Correlated.start (C : Config) (ready : List Extension) (replies : Nat → Reply) :
    Correlated C (Broker.start ready replies) := ⟨(fun _ hr => nomatch hr), .nil C⟩

theorem Correlated.note (h : Correlated C b) {r : Route} {g : List Nat → List Nat} {e : Event} (hn : Noted b b' r g e)
    (hfair : Fair C b.trace e) (hself : outstanding C r.routeId (e :: b.trace) = g (outstanding C r.routeId b.trace))
    (hother : ∀ id, id ≠ r.routeId → outstanding C id (e :: b.trace) = outstanding C id b.trace) : Correlated C b' := by
  refine ⟨fun r' hr' => ?_, hn.trace ▸ h.orderly.cons hfair⟩
  rw [hn.trace]
  by_cases hid : r'.routeId = r.routeId
  · have hr := h.noted r (Keyed.mem_of_find hn.route)
    rw [hn.self r' hr' hid, hid, hself, hr]
  · rw [hother _ hid]
    exact h.noted r' (hn.other r' hr' hid)

theorem Traffic.correlated (m : Traffic C P b b') (told : Told b) (h : Correlated C b) : Correlated C b' := by
  cases m with
  | still routes trace =>
    refine ⟨fun r' hr' => ?_, h.orderly.grown trace⟩
    obtain ⟨r, hr, h1, h2, _⟩ := routes r' hr'
    rw [h2, h1, h.noted r hr, outstanding_grown trace]
  | opened _ r new none routes trace =>
    refine ⟨fun r' hr' => ?_, h.orderly.grown trace⟩
    rw [outstanding_grown trace]
    rw [routes] at hr'
    rcases List.mem_append.mp hr' with hr' | hr'
    · exact h.noted r' hr'
    · obtain rfl := List.mem_singleton.mp hr'
      rw [none, new, outstanding_unheard fun e he hid => Nat.lt_irrefl _ (told.old e he _ hid)]
  | asked _ r seq bytes noted fair =>
    rw [h.noted r (Keyed.mem_of_find noted.route)] at fair
    exact h.note noted fair (if_pos rfl) fun id hid => if_neg (Ne.symm hid)
  | answered _ r seq bytes out noted fair =>
    rw [h.noted r (Keyed.mem_of_find noted.route)] at fair
    exact h.note noted fair (if_pos rfl) fun id hid => if_neg (Ne.symm hid)

theorem Path.correlated (p : Path C P D b D' b') (hs : Sound D b) (hp : Piped C b) (h : Correlated C b) :
    Correlated C b' := by
  induction p with
  | refl => exact h
  | step first _ ih =>
    exact ih (first.sound hs) (first.piped hs hp) ((first.traffic hs).correlated hp.told h)

theorem run_correlated (C : Config) (ops : List Op) {b : Broker} (hs : Sound [] b) (hp : Piped C b) (h : Correlated C b) :
    Correlated C (run C ops b) := by
  induction ops generalizing b with
  | nil => exact h
  | cons op ops ih =>
    exact ih ((op.walk hs).sound hs) ((op.walk hs).piped hs hp) ((op.walk hs).correlated hs hp h)

/-- **Nothing is asked or answered**: no route's requests and numbers change, and no frame goes on a route. -/
structure Still (b b' : Broker) : Prop where
  routes : Unmoved b b'
  trace : ∃ l, b'.trace = l ++ b.trace ∧ ∀ e ∈ l, e.traffic = false

theorem Still.refl (b : Broker) : Still b b := ⟨.of_routes rfl, [], rfl, fun _ h => nomatch h⟩

theorem Still.trans {b'' : Broker} (h : Still b b') (h' : Still b' b'') : Still b b'' := by
  obtain ⟨l, hl, hidle⟩ := h.trace
  obtain ⟨l', hl', hidle'⟩ := h'.trace
  refine ⟨h.routes.trans h'.routes, l' ++ l, by rw [hl', hl, List.append_assoc], fun e he => ?_⟩
  rcases List.mem_append.mp he with he | he
  · exact hidle' e he
  · exact hidle e he

theorem Still.of_grown (routes : Unmoved b b') (trace : Grown Event.traffic b.trace b'.trace) : Still b b' := by
  rcases trace with htrace | ⟨e, he, htrace⟩
  · exact ⟨routes, [], htrace, fun _ h => nomatch h⟩
  · exact ⟨routes, [e], htrace, fun x hx => List.mem_singleton.mp hx ▸ he⟩

theorem Path.still (p : Path C P D b D' b') (hs : Sound D b) (hg : ¬ P.grow) (hd : ¬ P.data) : Still b b' := by
  induction p with
  | refl => exact .refl _
  | step first _ ih =>
    refine Still.trans ?_ (ih (first.sound hs))
    cases first.traffic hs with
    | still routes trace => exact .of_grown routes trace
    | opened grow => exact absurd grow hg
    | asked data => exact absurd data hd
    | answered data => exact absurd data hd

/-! ## Requests that are refused -/

/-- **A client frame that is not accepted goes on no route and is noted nowhere.** -/
theorem forwardClientFrame_refused (hs : Sound [] b) (k : Nat) (bytes : Bytes)
    (no : (b.forwardClientFrame C k bytes).1.accepted = false) : Still b (b.forwardClientFrame C k bytes).2 :=
  (walk_forwardClientFrame (P := .ending) hs k bytes fun ha => absurd ha (by rw [no]; simp)).still hs id id

/-- **A request that comes to be counted**: the route of its client is open, both authorizations are in force, and the frame
is one that the client may send. -/
structure Requesting (C : Config) (b : Broker) (k : Nat) (client : Client) (c : Carrier) (r : Route) (f : PublicFrame)
    (bytes : Bytes) : Prop where
  found : b.clientAt k = some client
  route : b.routeOf client.routeId = some r
  opened : r.status = .opened
  authorized : (b.isClientAuthorizationActive C client).1 = true
  carrier : b.ownCarrier r = some c
  owner : b.active.lookup r.authContext.hostId = some c.serial
  carrierAuthorized : (b.read.isCarrierAuthorizationActive C c).1 = true
  decoded : C.codec.decodePublic bytes = some f
  fits : bytes.byteLength ≤ r.maxFrameBytes
  identity : b.clientFrameAuthorized r f = true
  request : f.kind = .request

/-- The request is one that is already on the way, or there is no room for another. -/
def Clashes (r : Route) (f : PublicFrame) : Prop :=
  f.requestId.any (· ∈ r.inFlightRequestIds) = true ∨ maxInFlightRequestsPerRoute ≤ r.inFlightRequestIds.length

namespace Requesting

variable {k : Nat} {client : Client} {c : Carrier} {r : Route} {f : PublicFrame} {bytes : Bytes}

theorem on (h : Requesting C b k client c r f bytes) (hs : Sound [] b) : On b.read.read c r := by
  have hr : b.routeOf r.routeId = some r := by rw [id_of_routeOf h.route]; exact h.route
  exact (Same.read _).on ((Same.read b).on (on_of_ownCarrier hs hr h.carrier))

theorem forward (h : Requesting C b k client c r f bytes) (hs : Sound [] b) :
    b.forwardClientFrame C k bytes = b.read.read.forwardDecoded C c r f bytes := by
  have hclient : b.isClientAuthorizationActive C client = (true, b.read) := by
    rcases isClientAuthorizationActive_spec (C := C) hs client with ⟨b₁, heq, rfl⟩ | ⟨b₁, heq, _⟩
    · exact heq
    · have hno := h.authorized
      rw [heq] at hno
      cases hno
  have hcarrier : b.read.isCarrierAuthorizationActive C c = (true, b.read.read) := by
    rcases isCarrierAuthorizationActive_spec (C := C) ((Same.read b).sound hs) c with ⟨b₁, heq, rfl⟩ | ⟨b₁, heq, _⟩
    · exact heq
    · have hno := h.carrierAuthorized
      rw [heq] at hno
      cases hno
  have howner : (b.read.ownCarrier r).filter (fun c => b.read.active.lookup r.authContext.hostId = some c.serial) =
      some c := by
    show (b.ownCarrier r).filter (fun c => b.active.lookup r.authContext.hostId = some c.serial) = some c
    rw [h.carrier, Option.filter_some, if_pos (decide_eq_true h.owner)]
  unfold Broker.forwardClientFrame
  rw [h.found]
  dsimp only
  rw [h.route]
  dsimp only
  rw [if_neg (by simp [h.opened]), hclient]
  dsimp only
  rw [if_neg (by simp), howner]
  dsimp only
  rw [hcarrier]
  dsimp only
  rw [if_neg (by simp), h.decoded]

theorem checked (h : Requesting C b k client c r f bytes) :
    (bytes.byteLength > r.maxFrameBytes || !b.read.read.clientFrameAuthorized r f) = false := by
  have hidentity : b.read.read.clientFrameAuthorized r f = true := h.identity
  simp [hidentity, h.fits]

/-- **A second request of the same id, and one beyond the limit, is refused, and the broker has only looked at the clock.** -/
theorem refused (h : Requesting C b k client c r f bytes) (hs : Sound [] b) (hclash : Clashes r f)
    (hsnap : f.type ≠ .hostsSnapshotGet) : ∃ e : StructuredError, (e.code = .idempotencyConflict ∨ e.code = .busy) ∧
      b.forwardClientFrame C k bytes = (⟨false, [], some e⟩, b.read.read) := by
  rw [h.forward hs]
  unfold Broker.forwardDecoded
  rw [if_neg (by simp [h.checked]), if_neg hsnap]
  by_cases hin : f.requestId.any (· ∈ r.inFlightRequestIds) = true
  · rw [if_pos (by simp only [h.request, decide_true, Bool.true_and]; exact hin)]
    exact ⟨_, .inl rfl, rfl⟩
  · have hfull := hclash.resolve_left hin
    rw [if_neg (by simp only [h.request, decide_true, Bool.true_and]; exact hin),
      if_pos (by simp only [h.request, decide_true, Bool.true_and, decide_eq_true_eq]; exact hfull)]
    exact ⟨_, .inr rfl, rfl⟩

/-- **A request that the broker answers itself, for the directory or for an extension that is not negotiated, is noted
nowhere.** -/
theorem still (h : Requesting C b k client c r f bytes) (hs : Sound [] b)
    (own : f.type = .hostsSnapshotGet ∨ ∃ e, f.lane = some e ∧ b.extensionNegotiated r e = false) :
    Still b (b.forwardClientFrame C k bytes).2 := by
  have hs₂ : Sound [] b.read.read := (Same.read _).sound ((Same.read b).sound hs)
  have hread : Path C .ending [] b [] b.read.read := .step (.quiet (.read b)) (.one (.quiet (.read _)))
  rw [h.forward hs]
  suffices p : Path C .ending [] b.read.read [] (b.read.read.forwardDecoded C c r f bytes).2 from
    (hread.trans p).still hs id id
  unfold Broker.forwardDecoded
  rw [if_neg (by simp [h.checked])]
  split
  · exact walk_answerSnapshot hs₂ (h.on hs) h.opened f
  · next hsnap =>
    obtain ⟨e, hlane, hneg⟩ := own.resolve_left hsnap
    have hneg₂ : b.read.read.extensionNegotiated r e = false := hneg
    split
    · exact .refl
    · split
      · exact .refl
      · rw [hlane]
        dsimp only
        rw [hneg₂, if_neg (by simp)]
        split
        · exact walk_unavailable hs₂ (h.on hs) h.opened f e
        · exact walk_reject hs₂ (h.on hs).route _ _ _ _

end Requesting

/-! ## Responses of a withdrawn extension -/

theorem closeRoute_trace (c : Carrier) (r : Route) (withControl : Bool) (b : Broker) :
    (b.closeRoute c r withControl).trace = b.trace := by
  have hclient : ∀ b₁ : Broker, (b₁.discardQueuedClientData r).trace = b₁.trace := by
    intro b₁
    unfold Broker.discardQueuedClientData
    split
    · rfl
    · exact (releaseHostToClient_rest r _ b₁).2.1
  unfold Broker.closeRoute
  dsimp only
  refine (hclient _).trans ?_
  split <;> exact (discardData_routes c r.routeId b).2.2.1

theorem dropRoute_trace (r : Route) (b : Broker) : (b.dropRoute r).trace = b.trace := by
  have hclient : ∀ b₁ : Broker, (Broker.dropFromClient r b₁).trace = b₁.trace := by
    intro b₁
    unfold Broker.dropFromClient
    split
    · rfl
    · exact (releaseHostToClient_rest r _ b₁).2.1
  have hcarrier : (Broker.dropFromCarrier r b).trace = b.trace := by
    unfold Broker.dropFromCarrier
    split
    · rfl
    · next c _ => exact (discardData_routes c r.routeId b).2.2.1
  exact (hclient _).trans hcarrier

theorem beginRouteUnbind_trace (C : Config) (r : Route) (reason : UnbindReason) (b : Broker) :
    ∃ l, (b.beginRouteUnbind C r reason).2.trace = l ++ b.trace ∧ ∀ e ∈ l, e = .resumed r.routeId .clientToHost := by
  unfold Broker.beginRouteUnbind
  split
  · exact ⟨[], rfl, by simp⟩
  · obtain ⟨resumes, b₁, l, heq, htrace, hl⟩ : ∃ resumes b₁ l, (if r.clientReadPaused then
          ([Action.resumeClient r.connectionId r.connectionIncarnation],
            (b.setRoute r.routeId fun r => { r with clientReadPaused := false, clientToHostPressureSinceMs := none }).emit
              (.resumed r.routeId .clientToHost))
        else ([], b)) = (resumes, b₁) ∧ b₁.trace = l ++ b.trace ∧ ∀ e ∈ l, e = .resumed r.routeId .clientToHost := by
      split
      · exact ⟨_, _, [_], rfl, rfl, fun e he => List.mem_singleton.mp he⟩
      · exact ⟨_, _, [], rfl, rfl, by simp⟩
    rw [heq]
    refine ⟨l, Eq.trans ?_ htrace, hl⟩
    dsimp only
    split
    · exact dropRoute_trace r b₁
    · next c _ => exact (enqueueControl_rest C c.serial _ _ _).2.trans (closeRoute_trace c r false b₁)

/-- **A frame of a host that comes to the lookup of its request**: the carrier is active and the route its own, the frame
is the route's next one and one that the host may send. -/
structure Arriving (C : Config) (b : Broker) (c : Carrier) (r : Route) (f : PublicFrame) (bytes : Bytes) : Prop where
  found : b.carrierAt c.transportId = some c
  active : c.status = .active
  carrierAuthorized : (b.isCarrierAuthorizationActive C c).1 = true
  connector : c.connectorId = some r.connectorId
  route : b.routeOf r.routeId = some r
  transport : r.carrierTransportId = c.transportId
  status : r.status = .opened ∨ r.status = .closing
  authorized : r.status = .opened → ∃ client, b.clientAt r.connectionId = some client ∧
    (b.read.isClientAuthorizationActive C client).1 = true
  decoded : C.codec.decodePublic bytes = some f
  fits : bytes.byteLength ≤ r.maxFrameBytes
  identity : Broker.hostFrameAuthorized c r f = true

/-- The frame of the carrier that brings `bytes` as the next ones of the route. -/
def FromHost.next (c : Carrier) (r : Route) (bytes : Bytes) : FromHost :=
  .routeData (c.connectorId.getD 0) r.routeId r.routeFence true r.expectedHostToClientSeq bytes

/-- **What a response of a withdrawn extension comes to**: its request is let go, and the client gets one error in its
place, or the route is closing. -/
structure Withdrawn (b b' : Broker) (res : Result) (c : Carrier) (r : Route) (f : PublicFrame) (e : Extension)
    (bytes : Bytes) : Prop where
  released : ∀ r' ∈ b'.routes, r'.routeId = r.routeId →
    r'.inFlightRequestIds = r.inFlightRequestIds.filter (fun id => some id ≠ f.requestId)
  outcome : (res.accepted = true ∧ b'.trace =
      .made r.routeId (.unavailable e f.requestId r.authContext.hostId ((c.hello.map HostHello.hostEpoch).getD 0)) ::
        .admitted r.routeId r.expectedHostToClientSeq bytes none :: b.trace) ∨
    ((∀ r' ∈ b'.routes, r'.routeId = r.routeId → r'.status = .closing) ∧
      (r.status = .opened → .closeClient r.connectionId r.connectionIncarnation 1013 "slow_consumer" ∈ res.actions) ∧
      ∃ l, b'.trace = l ++ .admitted r.routeId r.expectedHostToClientSeq bytes none :: b.trace ∧
        ∀ x ∈ l, x = .resumed r.routeId .clientToHost)

namespace Arriving

variable {c : Carrier} {r : Route} {f : PublicFrame} {bytes : Bytes}

theorem receive (h : Arriving C b c r f bytes) (hs : Sound [] b) : ∃ b₁, (b₁ = b.read ∨ b₁ = b.read.read) ∧
    b.receiveHostFrame C c.transportId (some (.next c r bytes)) =
      b₁.routeDataChecked C c r r.expectedHostToClientSeq bytes := by
  have hcarrier : b.isCarrierAuthorizationActive C c = (true, b.read) := by
    rcases isCarrierAuthorizationActive_spec (C := C) hs c with ⟨b₁, heq, rfl⟩ | ⟨b₁, heq, _⟩
    · exact heq
    · have hno := h.carrierAuthorized
      rw [heq] at hno
      cases hno
  have hcurrent : b.read.currentRouteForFrame c r.routeId r.routeFence = some r := by
    unfold Broker.currentRouteForFrame
    rw [show b.read.routeOf r.routeId = some r from h.route, Option.filter_some,
      if_pos (decide_eq_true ⟨h.transport, h.connector, rfl⟩)]
  have hreceive : b.receiveHostFrame C c.transportId (some (.next c r bytes)) =
      b.read.routeDataFromHost C c r.routeId r.routeFence true r.expectedHostToClientSeq bytes := by
    unfold Broker.receiveHostFrame
    rw [h.found]
    dsimp only
    rw [if_neg (by rw [h.active]; simp), hcarrier]
    dsimp only
    rw [if_neg (by simp), h.active]
    dsimp only [FromHost.next]
    rw [if_neg (by simp [FromHost.connectorId, h.connector])]
  rw [hreceive]
  unfold Broker.routeDataFromHost
  rw [hcurrent]
  dsimp only
  rw [if_neg (by rcases h.status with hst | hst <;> simp [hst])]
  rcases h.status with hst | hst
  · obtain ⟨client, hfound, hauth⟩ := h.authorized hst
    rw [if_neg (by simp [hst]), show b.read.clientAt r.connectionId = some client from hfound]
    dsimp only
    have hclient : b.read.isClientAuthorizationActive C client = (true, b.read.read) := by
      rcases isClientAuthorizationActive_spec (C := C) ((Same.read b).sound hs) client with ⟨b₁, heq, rfl⟩ | ⟨b₁, heq, _⟩
      · exact heq
      · rw [heq] at hauth
        cases hauth
    rw [hclient]
    exact ⟨_, .inr rfl, rfl⟩
  · rw [if_pos hst]
    exact ⟨_, .inl rfl, rfl⟩

theorem on (h : Arriving C b c r f bytes) (hs : Sound [] b) : On b c r := by
  obtain ⟨hc, hatt, _⟩ := hs.carrierAt_iff.mp h.found
  exact ⟨hc, h.route, hatt, h.active, h.transport.symm, h.connector⟩

end Arriving

theorem routeDataChecked_withdrawn {c : Carrier} {r : Route} {f : PublicFrame} {bytes : Bytes} {e : Extension}
    (hs : Sound [] b) (hon : On b c r) (hst : r.status = .opened ∨ r.status = .closing)
    (decoded : C.codec.decodePublic bytes = some f) (fits : bytes.byteLength ≤ r.maxFrameBytes)
    (identity : Broker.hostFrameAuthorized c r f = true) (hk : f.kind = .response)
    (hin : f.requestId.any (· ∈ r.inFlightRequestIds) = true) (hlane : f.lane = some e)
    (hdisp : r.agentExtensionDispositions e = some .withdrawn) :
    Withdrawn b (b.routeDataChecked C c r r.expectedHostToClientSeq bytes).2
      (b.routeDataChecked C c r r.expectedHostToClientSeq bytes).1 c r f e bytes := by
  have hneg : b.extensionNegotiated r e = false := by simp [Broker.extensionNegotiated, hdisp]
  -- what is left once the frame is consumed
  obtain ⟨b₂, hb₂⟩ : ∃ b₂, b₂ = (b.consumeHostFrame r.routeId f).emit
    (.admitted r.routeId r.expectedHostToClientSeq bytes none) := ⟨_, rfl⟩
  obtain ⟨r₁, hr₁⟩ : ∃ r₁ : Route, r₁ = { r with
      expectedHostToClientSeq := r.expectedHostToClientSeq + 1
      inFlightRequestIds := if f.kind = .response then r.inFlightRequestIds.filter (fun id => some id ≠ f.requestId)
        else r.inFlightRequestIds } := ⟨_, rfl⟩
  have htrace : b₂.trace = .admitted r.routeId r.expectedHostToClientSeq bytes none :: b.trace := by rw [hb₂]; rfl
  have hof : b₂.routeOf r.routeId = some r₁ := by rw [hb₂, hr₁]; exact routeOf_consume f hon.route
  have hs₂ : Sound [] b₂ := by
    have m : Move C ⟨False, False, fun _ => False, True⟩ [] b [] b₂ := by
      rw [hb₂]
      exact .consume f bytes trivial hon (hst.symm.imp_right fun ho => ⟨ho, e, hlane, hdisp⟩) decoded fun _ => hin
    exact m.sound hs
  have hself : ∀ r' ∈ b₂.routes, r'.routeId = r.routeId → r' = r₁ := fun r' hr' hid =>
    Option.some.inj ((Keyed.find_of_mem hs₂.routeIds hr').symm.trans (hid ▸ hof))
  have hids : r₁.inFlightRequestIds = r.inFlightRequestIds.filter (fun id => some id ≠ f.requestId) := by
    rw [hr₁]
    exact if_pos hk
  have hkept : ∀ b', Unmoved b₂ b' → ∀ r' ∈ b'.routes, r'.routeId = r.routeId →
      r'.inFlightRequestIds = r.inFlightRequestIds.filter (fun id => some id ≠ f.requestId) := by
    intro b' hu r' hr' hid
    obtain ⟨r₂, hr₂, h1, h2, _⟩ := hu r' hr'
    rw [h2, hself r₂ hr₂ (h1.symm.trans hid), hids]
  unfold Broker.routeDataChecked
  rw [if_neg (by simp), decoded]
  dsimp only
  rw [if_neg (by simp [identity, fits]), if_neg (by simp only [hk, hin]; simp)]
  rcases hst with hst | hst
  · rw [if_neg (by simp [hst])]
    have hsame : (b.selectExtensions C r f bytes).2 = b :=
      (quiet_selectExtensions C r f bytes b).2.2.1 (not_hostWelcome hlane identity)
    have hid₁ : r₁.routeId = r.routeId := by rw [hr₁]
    have hdeliver : b.deliverHostFrame C c r f r.expectedHostToClientSeq bytes =
        b₂.enqueueAgentExtensionUnavailable C c r₁ f e := by
      unfold Broker.deliverHostFrame
      dsimp only
      rw [hlane]
      dsimp only
      rw [hsame, hneg, if_neg (by simp), if_neg (by simp [hdisp]), if_pos hk, ← hb₂, hof]
    rw [hdeliver]
    have hsame : r₁.routeId = r.routeId ∧ r₁.status = .opened ∧ r₁.authContext = r.authContext ∧
        r₁.connectionId = r.connectionId ∧ r₁.connectionIncarnation = r.connectionIncarnation := by
      rw [hr₁]
      exact ⟨rfl, hst, rfl, rfl, rfl⟩
    obtain ⟨hid, hopen, hauth, hconn, hinc⟩ := hsame
    have hof₁ : b₂.routeOf r₁.routeId = some r₁ := by rw [hid]; exact hof
    unfold Broker.enqueueAgentExtensionUnavailable
    dsimp only
    split
    · -- no room for the error: the route is unbound
      refine ⟨hkept _ ((walk_beginRouteUnbind (P := .ending) hs₂ hof₁ .slowConsumer).still hs₂ id id).routes, .inr ⟨?_, ?_, ?_⟩⟩
      · intro r' hr' hid'
        have hs₃ := (walk_beginRouteUnbind (C := C) (P := .ending) hs₂ hof₁ .slowConsumer).sound hs₂
        refine beginRouteUnbind_status C .slowConsumer (by rw [hopen]; simp) b₂ ?_
        rw [hid, ← hid']
        exact Keyed.find_of_mem hs₃.routeIds hr'
      · intro _
        rw [← hconn, ← hinc]
        exact List.mem_append_right _ (List.mem_singleton.mpr rfl)
      · obtain ⟨l, hl, hres⟩ := beginRouteUnbind_trace C r₁ .slowConsumer b₂
        exact ⟨l, hl.trans (by rw [htrace]), fun x hx => (hres x hx).trans (by rw [hid])⟩
    · -- the error goes to the client
      have hq := quiet_pushClient C c.serial r₁ (C.codec.encode (.unavailable e f.requestId r₁.authContext.hostId
        ((c.hello.map HostHello.hostEpoch).getD 0))) true b₂
      have hpushed : Unmoved b₂ (b₂.pushFrame c.serial r₁ (C.codec.encode (.unavailable e f.requestId r₁.authContext.hostId
          ((c.hello.map HostHello.hostEpoch).getD 0))) true) := .setRoute b₂ (by exact fun _ => ⟨rfl, rfl, rfl⟩)
      refine ⟨hkept _ ((hpushed.trans (.of_quiet hq)).trans (.of_routes rfl)), .inl ⟨rfl, ?_⟩⟩
      rw [← htrace, ← hauth, ← hid]
      exact congrArg (_ :: ·) hq.trace
  · rw [if_pos hst, if_neg (by simp [hlane, hdisp]), ← hb₂]
    refine ⟨hkept _ (.of_routes rfl), .inr ⟨?_, fun hopen => ?_, [], htrace, fun _ h => nomatch h⟩⟩
    · intro r' hr' hid
      rw [hself r' hr' hid, hr₁]
      exact hst
    · rw [hopen] at hst
      cases hst

/-- **A response of a withdrawn extension to a request on the way.** -/
theorem Arriving.withdrawn {c : Carrier} {r : Route} {f : PublicFrame} {bytes : Bytes} {e : Extension}
    (h : Arriving C b c r f bytes) (hs : Sound [] b) (hk : f.kind = .response)
    (hin : f.requestId.any (· ∈ r.inFlightRequestIds) = true) (hlane : f.lane = some e)
    (hdisp : r.agentExtensionDispositions e = some .withdrawn) :
    Withdrawn b (b.receiveHostFrame C c.transportId (some (.next c r bytes))).2
      (b.receiveHostFrame C c.transportId (some (.next c r bytes))).1 c r f e bytes := by
  obtain ⟨b₁, hb₁, heq⟩ := h.receive hs
  rw [heq]
  have hsame : Same b b₁ := by
    rcases hb₁ with rfl | rfl
    · exact .read b
    · exact (Same.read b).trans (.read _)
  obtain ⟨hreleased, houtcome⟩ := routeDataChecked_withdrawn (C := C) (hsame.sound hs) (hsame.on (h.on hs)) h.status h.decoded
    h.fits h.identity hk hin hlane hdisp
  rw [hsame.trace] at houtcome
  exact ⟨hreleased, houtcome⟩

end

/-- **How requests and responses go together**. -/
structure Conversing (C : Config) (b : Broker) : Prop where
  /-- A response that is taken answers a request that is on the way on its route. -/
  answers : ∀ id seq bytes out older, .admitted id seq bytes out :: older <:+ b.trace →
    ∀ f, C.codec.decodePublic bytes = some f → f.kind = .response → f.requestId.any (· ∈ outstanding C id older) = true
  /-- At any time a request that is on the way was asked once more than answered, and any other as often. -/
  once : ∀ t, t <:+ b.trace → ∀ id q, asked C id q t = answered C id q t + if q ∈ outstanding C id t then 1 else 0
  noted : ∀ r ∈ b.routes, r.inFlightRequestIds = outstanding C r.routeId b.trace ∧ r.inFlightRequestIds.Nodup ∧
    r.inFlightRequestIds.length ≤ maxInFlightRequestsPerRoute
  clash : ∀ {k client c r f bytes}, Requesting C b k client c r f bytes → Clashes r f → f.type ≠ .hostsSnapshotGet →
    ∃ e : StructuredError, (e.code = .idempotencyConflict ∨ e.code = .busy) ∧
      b.forwardClientFrame C k bytes = (⟨false, [], some e⟩, b.read.read)
  refused : ∀ k bytes, (b.forwardClientFrame C k bytes).1.accepted = false → Still b (b.forwardClientFrame C k bytes).2
  own : ∀ {k client c r f bytes}, Requesting C b k client c r f bytes →
    (f.type = .hostsSnapshotGet ∨ ∃ e, f.lane = some e ∧ b.extensionNegotiated r e = false) →
      Still b (b.forwardClientFrame C k bytes).2
  withdrawn : ∀ {c r f bytes e}, Arriving C b c r f bytes → f.kind = .response →
    f.requestId.any (· ∈ r.inFlightRequestIds) = true → f.lane = some e → r.agentExtensionDispositions e = some .withdrawn →
      Withdrawn b (b.receiveHostFrame C c.transportId (some (.next c r bytes))).2
        (b.receiveHostFrame C c.transportId (some (.next c r bytes))).1 c r f e bytes

/-- **Requests and responses go together after every run.** -/
theorem requests_correlated (C : Config) (ready : List Extension) (replies : Nat → Reply) (ops : List Op) :
    Conversing C (run C ops (Broker.start ready replies)) := by
  have hs := run_sound C ops (Sound.start ready replies)
  have hcorr := run_correlated C ops (Sound.start ready replies) (Piped.start C ready replies) (.start C ready replies)
  have hsuffix : ∀ t, t <:+ (run C ops (Broker.start ready replies)).trace → Orderly C t := fun t ht e older he =>
    hcorr.orderly e older (he.trans ht)
  exact
    { answers := fun id seq bytes out older ho => hcorr.orderly _ older ho
      once := fun t ht id => ((hsuffix t ht).settled id).2.2
      noted := fun r hr => by
        obtain ⟨hnd, hlen, _⟩ := hcorr.orderly.settled r.routeId
        rw [hcorr.noted r hr]
        exact ⟨rfl, hnd, hlen⟩
      clash := fun h hc hne => h.refused hs hc hne
      refused := fun k bytes => forwardClientFrame_refused hs k bytes
      own := fun h ho => h.still hs ho
      withdrawn := fun h hk hin hlane hd => h.withdrawn hs hk hin hlane hd }

/-- A codec with a terminal input and a directory request, both of request 9. -/
def directoryCodec : Codec where
  decodePublic data :=
    if data.content = 1 then some { lane := none, kind := .request, type := .terminalInput, requestId := some 9 }
    else some { lane := none, kind := .request, type := .hostsSnapshotGet, requestId := some 9 }
  wireBytes _ := 400
  encode _ := ⟨500, 700⟩

def directoryConfig : Config := ⟨directoryCodec, true, true, true, true⟩

def directoryAsked : List Op :=
  sampleRegister ++ [.open 20 chatClient 21, .receive 1 (some (.routeOpened 1 3 4 5 65536)), .forward 20 ⟨1, 50⟩]

/-- **A directory request of the same id is answered all the same**, by the broker. -/
theorem requests_correlated_snapshot :
    ¬ ∀ (C : Config) (ready : List Extension) (replies : Nat → Reply) (ops : List Op) (k : Nat) (client : Client) (c : Carrier)
        (r : Route) (f : PublicFrame) (bytes : Bytes),
      Requesting C (run C ops (Broker.start ready replies)) k client c r f bytes → Clashes r f →
        ((run C ops (Broker.start ready replies)).forwardClientFrame C k bytes).1.accepted = false := by
  intro hclaim
  have hrun : ((run directoryConfig directoryAsked sampleStart).clientAt 20).any (fun client =>
      ((run directoryConfig directoryAsked sampleStart).routeOf client.routeId).any fun r =>
      ((run directoryConfig directoryAsked sampleStart).ownCarrier r).any fun c =>
        r.status = .opened &&
        ((run directoryConfig directoryAsked sampleStart).isClientAuthorizationActive directoryConfig client).1 &&
        decide ((run directoryConfig directoryAsked sampleStart).active.lookup r.authContext.hostId = some c.serial) &&
        ((run directoryConfig directoryAsked sampleStart).read.isCarrierAuthorizationActive directoryConfig c).1 &&
        decide (40 ≤ r.maxFrameBytes) &&
        (run directoryConfig directoryAsked sampleStart).clientFrameAuthorized r
          { lane := none, kind := .request, type := .hostsSnapshotGet, requestId := some 9 } &&
        decide (9 ∈ r.inFlightRequestIds) &&
        ((run directoryConfig directoryAsked sampleStart).forwardClientFrame directoryConfig 20 ⟨2, 40⟩).1.accepted) = true := by
    decide +kernel
  obtain ⟨client, hclient, hrun⟩ := (Option.any_eq_true _ _).mp hrun
  obtain ⟨r, hr, hrun⟩ := (Option.any_eq_true _ _).mp hrun
  obtain ⟨c, hc, hrun⟩ := (Option.any_eq_true _ _).mp hrun
  simp only [Bool.and_eq_true, decide_eq_true_eq] at hrun
  obtain ⟨⟨⟨⟨⟨⟨⟨hopen, hauth⟩, howner⟩, hcauth⟩, hfits⟩, hident⟩, hin⟩, hyes⟩ := hrun
  have hno := hclaim directoryConfig [] (fun _ => ⟨5, false⟩) directoryAsked 20 client c r _ ⟨2, 40⟩
    ⟨hclient, hr, hopen, hauth, hc, howner, hcauth, rfl, hfits, hident, rfl⟩ (.inl (by simpa using hin))
  exact absurd (hyes.symm.trans hno) (by simp)

end Relay
end TmuxWorktree

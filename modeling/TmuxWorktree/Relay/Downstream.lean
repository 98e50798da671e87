import TmuxWorktree.Relay.Upstream
/-!
# Downstream — the way from the host to the clients

A host frame with the next number of its route is taken and queued for the client of the route, in between what the broker
makes itself.  Two kinds of frames are taken and not queued: those that cross the end of the route, and those of an agent
extension that was withdrawn from it.
-/
namespace TmuxWorktree
namespace Relay

def OfExtension (C : Config) (bytes : Bytes) : Prop := ∃ f e, C.codec.decodePublic bytes = some f ∧ f.lane = some e

/-- What the client gets for a host frame: the frame, or a `host.welcome` without some of its capabilities. -/
def Faithful (C : Config) (bytes out : Bytes) : Prop :=
  out = bytes ∨ ∃ f stripped, C.codec.decodePublic bytes = some f ∧ f.type = .hostWelcome ∧
    out = C.codec.encode (.stripped bytes stripped)

def Route.down (r : Route) : Nat × RouteStatus × Nat := (r.connectionId, r.status, r.expectedHostToClientSeq)

def Event.downward : Event → Bool
  | .admitted .. => true
  | .made .. => true
  | .handed .. => true
  | _ => false

theorem Grown.downward {C : Config} {t t' : List Event} (h : Grown Event.downward t t') (id : Nat) :
    admits id t' = admits id t ∧ pushes C id t' = pushes C id t ∧ hands id t' = hands id t := by
  rcases h with rfl | ⟨e, he, rfl⟩
  · exact ⟨rfl, rfl, rfl⟩
  · have hnone : e.admitOn id = none ∧ e.pushOn C id = none ∧ e.handOn id = none := by
      cases e <;> first | exact ⟨rfl, rfl, rfl⟩ | cases he
    unfold admits pushes hands
    rw [picked_cons, picked_cons, picked_cons, hnone.1, hnone.2.1, hnone.2.2]
    simp

/-- The way to the client of one route: what was queued for it is with the client or in its queue, and the host frames
taken are numbered from one. -/
structure DownstreamAt (C : Config) (b : Broker) (id : Nat) : Prop where
  pipe : ∀ r c, b.routeOf id = some r → r.status = .opened → b.clientAt r.connectionId = some c →
    pushes C id b.trace = hands id b.trace ++ c.queue.map QueuedClientFrame.bytes
  handed : hands id b.trace <+: pushes C id b.trace
  numbered : (admits id b.trace).map Prod.fst = List.range' 1 (admits id b.trace).length
  expected : ∀ r, b.routeOf id = some r → r.expectedHostToClientSeq = (admits id b.trace).length + 1
  unopened : ∀ r, b.routeOf id = some r → r.status = .opening → pushes C id b.trace = []
  kept : ∀ r, b.routeOf id = some r → r.status ≠ .closing → ∀ seq bytes, .admitted id seq bytes none ∈ b.trace →
    OfExtension C bytes

/-- **What was queued for clients is with them or in their queues.** -/
structure Downstream (C : Config) (b : Broker) : Prop where
  at_ : ∀ id, DownstreamAt C b id
  queue : ∀ k c e, b.clientAt k = some c → e ∈ c.queue → e.route = c.routeId ∧
    ∃ r, b.routeOf c.routeId = some r ∧ r.status = .opened ∧ r.connectionId = k
  addressed : ∀ k id bytes, .handed k id bytes ∈ b.trace → ∃ f, .created id k f ∈ b.trace
  faithful : ∀ id seq bytes out, .admitted id seq bytes (some out) ∈ b.trace → Faithful C bytes out

section
variable {C : Config} {b b' : Broker} {id : Nat}

theorem DownstreamAt.keep (h : DownstreamAt C b id) (hr : (b'.routeOf id).map Route.down = (b.routeOf id).map Route.down)
    (hc : ∀ r c', b.routeOf id = some r → b'.clientAt r.connectionId = some c' →
      ∃ c, b.clientAt r.connectionId = some c ∧ c'.queue = c.queue)
    (ht : admits id b'.trace = admits id b.trace ∧ pushes C id b'.trace = pushes C id b.trace ∧
      hands id b'.trace = hands id b.trace)
    (hnone : ∀ seq bytes, .admitted id seq bytes none ∈ b'.trace → .admitted id seq bytes none ∈ b.trace) :
    DownstreamAt C b' id := by
  have hback : ∀ r', b'.routeOf id = some r' → ∃ r, b.routeOf id = some r ∧ r.connectionId = r'.connectionId ∧
      r.status = r'.status ∧ r.expectedHostToClientSeq = r'.expectedHostToClientSeq := by
    intro r' hr'
    rw [hr', Option.map_some] at hr
    obtain ⟨r, hrof, heq⟩ := Option.map_eq_some_iff.mp hr.symm
    simp only [Route.down, Prod.mk.injEq] at heq
    exact ⟨r, hrof, heq⟩
  refine ⟨fun r' c' hr' hst hc' => ?_, ?_, ?_, fun r' hr' => ?_, fun r' hr' hst => ?_, fun r' hr' hst seq bytes he => ?_⟩
  · obtain ⟨r, hrof, h1, h2, _⟩ := hback r' hr'
    obtain ⟨c, hcat, hq⟩ := hc r c' hrof (h1.symm ▸ hc')
    rw [ht.2.1, ht.2.2, hq]
    exact h.pipe r c hrof (h2.trans hst) hcat
  · rw [ht.2.1, ht.2.2]
    exact h.handed
  · rw [ht.1]
    exact h.numbered
  · obtain ⟨r, hrof, _, _, h3⟩ := hback r' hr'
    rw [ht.1, ← h3]
    exact h.expected r hrof
  · obtain ⟨r, hrof, _, h2, _⟩ := hback r' hr'
    rw [ht.2.1]
    exact h.unopened r hrof (h2.trans hst)
  · obtain ⟨r, hrof, _, h2, _⟩ := hback r' hr'
    exact h.kept r hrof (by rw [h2]; exact hst) seq bytes (hnone seq bytes he)

theorem Downstream.keep (h : Downstream C b) (hr : Looks Route.down b.routeOf b'.routeOf)
    (hc : Looks Client.pipe b.clientAt b'.clientAt) (ht : Grown Event.downward b.trace b'.trace) : Downstream C b' where
  at_ id := by
    refine (h.at_ id).keep (hr id) (fun r c' _ hc' => ?_) (ht.downward id) fun _ _ he => ht.mem_of he rfl
    obtain ⟨c, hcat, heq⟩ := hc.get hc'
    simp only [Client.pipe, Prod.mk.injEq] at heq
    exact ⟨c, hcat, heq.2.symm⟩
  queue k c' e hc' he := by
    obtain ⟨c, hcat, heq⟩ := hc.get hc'
    simp only [Client.pipe, Prod.mk.injEq] at heq
    obtain ⟨h1, r, hrof, hst, hk⟩ := h.queue k c e hcat (heq.2 ▸ he)
    obtain ⟨r', hr', heq'⟩ := Looks.get (fun x => (hr x).symm) hrof
    simp only [Route.down, Prod.mk.injEq] at heq'
    rw [← heq.1]
    exact ⟨h1, r', hr', heq'.2.1.trans hst, heq'.1.trans hk⟩
  addressed k id bytes he := by
    obtain ⟨f, hf⟩ := h.addressed k id bytes (ht.mem_of he rfl)
    exact ⟨f, ht.mem hf⟩
  faithful id seq bytes out he := h.faithful id seq bytes out (ht.mem_of he rfl)

theorem Downstream.alike (h : Downstream C b) (ha : Alike b b') (ht : Grown Event.downward b.trace b'.trace) :
    Downstream C b' := h.keep (ha.route.comp fun x => (x.1.1, x.2.1, x.2.2.2)) ha.client ht

theorem Sound.same_route {D : List Nat} (hs : Sound D b) {id' : Nat} {r r' : Route} (hr : b.routeOf id = some r)
    (hr' : b.routeOf id' = some r') (h : r.connectionId = r'.connectionId) : id = id' := by
  have hface : ∀ {id r}, b.routeOf id = some r → b.ownership.route id = some r.face := by
    intro id r hr
    show (b.routeOf id).map _ = _
    rw [hr]
    rfl
  have h₁ := hs.owned.clientOf id _ (hface hr)
  have h₂ := hs.owned.clientOf id' _ (hface hr')
  rw [show r.face.connectionId = r'.face.connectionId from h, h₂] at h₁
  exact (Option.some.inj h₁).symm

theorem Sound.route_client {D : List Nat} (hs : Sound D b) {r : Route} (hr : b.routeOf id = some r) :
    ∃ c, b.clientAt r.connectionId = some c ∧ c.routeId = id := by
  have hroute : b.ownership.route id = some r.face := by
    show (b.routeOf id).map _ = _
    rw [hr]
    rfl
  have hclient := hs.owned.clientOf id _ hroute
  exact Option.map_eq_some_iff.mp hclient

/-! ## Moves on the way to a client -/

theorem Downstream.ended {D : List Nat} {r : Route} (h : Downstream C b) (hs : Sound D b) (hr : b.routeOf r.routeId = some r)
    (he : Ended r b b') : Downstream C b' := by
  have hroutes : ∀ id, id ≠ r.routeId → (b'.routeOf id).map Route.down = (b.routeOf id).map Route.down := by
    intro id hid
    have hlook := congrArg (Option.map fun x : (Nat × Nat × Nat) × RouteStatus × Nat × Nat => (x.1.1, x.2.1, x.2.2.2))
      (he.routes id hid)
    rw [Option.map_map, Option.map_map] at hlook
    exact hlook
  refine ⟨fun id => ?_, fun k c' e hc' hx => ?_, fun k id bytes hx => ?_, fun id seq bytes out hx => ?_⟩
  · by_cases hid : id = r.routeId
    · subst hid
      have hat := h.at_ r.routeId
      refine ⟨fun r' c' hr' hst => ?_, ?_, ?_, fun r' hr' => ?_, fun r' hr' hst => ?_, fun r' hr' hst => ?_⟩
      · exact absurd (hst.symm.trans (he.route r' hr').1) (by decide)
      · rw [he.trace]
        exact hat.handed
      · rw [he.trace]
        exact hat.numbered
      · obtain ⟨_, heq⟩ := he.route r' hr'
        simp only [Prod.mk.injEq] at heq
        rw [he.trace, heq.2.2.2.2]
        exact hat.expected r hr
      · exact absurd (hst.symm.trans (he.route r' hr').1) (by decide)
      · exact absurd (he.route r' hr').1 hst
    · refine (h.at_ id).keep (hroutes id hid) (fun r' c' hr' hc' => ?_) (by rw [he.trace]; exact ⟨rfl, rfl, rfl⟩)
        fun _ _ hx => he.trace ▸ hx
      have hne : r'.connectionId ≠ r.connectionId := fun heq => hid (hs.same_route hr' hr heq)
      have hclient := he.clients r'.connectionId hne
      rw [hc', Option.map_some] at hclient
      obtain ⟨c, hc, heq⟩ := Option.map_eq_some_iff.mp hclient.symm
      simp only [Client.pipe, Prod.mk.injEq] at heq
      exact ⟨c, hc, heq.2.symm⟩
  · by_cases hk : k = r.connectionId
    · subst hk
      rw [he.client c' hc'] at hx
      cases hx
    · have hclient := he.clients k hk
      rw [hc', Option.map_some] at hclient
      obtain ⟨c, hc, heq⟩ := Option.map_eq_some_iff.mp hclient.symm
      simp only [Client.pipe, Prod.mk.injEq] at heq
      obtain ⟨h1, r₀, hr₀, hst₀, hk₀⟩ := h.queue k c e hc (heq.2 ▸ hx)
      have hid : c.routeId ≠ r.routeId := by
        intro heqid
        rw [heqid, hr] at hr₀
        obtain rfl := Option.some.inj hr₀
        exact hk hk₀.symm
      have hroute := hroutes c.routeId hid
      rw [hr₀, Option.map_some] at hroute
      obtain ⟨r', hr', heq'⟩ := Option.map_eq_some_iff.mp hroute
      simp only [Route.down, Prod.mk.injEq] at heq'
      rw [← heq.1]
      exact ⟨h1, r', hr', heq'.2.1.trans hst₀, heq'.1.trans hk₀⟩
  · rw [he.trace] at hx ⊢
    exact h.addressed k id bytes hx
  · rw [he.trace] at hx
    exact h.faithful id seq bytes out hx

theorem Downstream.welcome {D : List Nat} (h : Downstream C b) (hs : Sound D b) {r : Route} (hr : b.routeOf r.routeId = some r)
    (opening : r.status = .opening) {g : Route → Route} (hg : ∀ r, (g r).routeId = r.routeId)
    (hkeep : (g r).connectionId = r.connectionId ∧ (g r).expectedHostToClientSeq = r.expectedHostToClientSeq ∧
      (g r).status = .opened) : Downstream C (b.setRoute r.routeId g) := by
  have hat := h.at_ r.routeId
  have hnil := hat.unopened r hr opening
  have hself := routeOf_setRoute_at hr hg
  have hother : ∀ id, id ≠ r.routeId → (b.setRoute r.routeId g).routeOf id = b.routeOf id := fun id hid =>
    routeOf_setRoute_ne hg hid
  refine ⟨fun id => ?_, fun k c e hc hx => ?_, h.addressed, h.faithful⟩
  · by_cases hid : id = r.routeId
    · subst hid
      refine ⟨fun r' c hr' _ hc => ?_, hat.handed, hat.numbered, fun r' hr' => ?_, fun r' hr' hst => ?_, fun r' hr' _ => ?_⟩
      · obtain rfl := Option.some.inj (hself.symm.trans hr')
        rw [hkeep.1] at hc
        obtain ⟨c₀, hc₀, hcid⟩ := hs.route_client hr
        obtain rfl := Option.some.inj (hc₀.symm.trans hc)
        have hqueue : c₀.queue = [] := by
          refine List.eq_nil_iff_forall_not_mem.mpr fun e he => ?_
          obtain ⟨_, r₀, hr₀, hst₀, _⟩ := h.queue _ c₀ e hc₀ he
          rw [hcid, hr] at hr₀
          obtain rfl := Option.some.inj hr₀
          exact absurd (opening.symm.trans hst₀) (by decide)
        have hhand := hat.handed
        rw [hnil] at hhand
        show pushes C _ b.trace = hands _ b.trace ++ _
        rw [hnil, List.prefix_nil.mp hhand, hqueue]
        rfl
      · obtain rfl := Option.some.inj (hself.symm.trans hr')
        exact hkeep.2.1.trans (hat.expected r hr)
      · obtain rfl := Option.some.inj (hself.symm.trans hr')
        exact absurd (hkeep.2.2.symm.trans hst) (by decide)
      · exact hat.kept r hr (by rw [opening]; decide)
    · refine (h.at_ id).keep (by rw [hother id hid]) (fun r' c' _ hc' => ⟨c', hc', rfl⟩) ⟨rfl, rfl, rfl⟩ fun _ _ hx => hx
  · obtain ⟨h1, r₀, hr₀, hst₀, hk₀⟩ := h.queue k c e hc hx
    by_cases hid : c.routeId = r.routeId
    · rw [hid, hr] at hr₀
      obtain rfl := Option.some.inj hr₀
      exact absurd (opening.symm.trans hst₀) (by decide)
    · exact ⟨h1, r₀, (hother _ hid).trans hr₀, hst₀, hk₀⟩

theorem Downstream.addRoute {D : List Nat} (h : Downstream C b) (hs : Sound D b) (c : Carrier) {r : Route} (hnew : b.routeOf r.routeId = none)
    (hclient : b.clientAt r.connectionId = none) (hun : ∀ e ∈ b.trace, e.about ≠ some r.routeId)
    (opening : r.status = .opening) (first : r.expectedHostToClientSeq = 1) : Downstream C (b.addRoute c r) := by
  obtain ⟨_, hadm, hpush, hhand⟩ := pipes_nil C hun
  have hgrown : Grown Event.downward b.trace (b.addRoute c r).trace := .inr ⟨_, rfl, rfl⟩
  have hcases : ∀ {k : Nat} {c' : Client}, (b.addRoute c r).clientAt k = some c' →
      (k ≠ r.connectionId ∧ b.clientAt k = some c') ∨ (k = r.connectionId ∧ c'.queue = [] ∧ c'.routeId = r.routeId) := by
    intro k c' hc'
    have hfind := Keyed.find_append_single.symm.trans hc'
    cases hk : Keyed.find Client.connectionId k b.clients with
    | some c₀ =>
      rw [hk] at hfind
      obtain rfl := Option.some.inj hfind
      refine .inl ⟨?_, hk⟩
      rintro rfl
      unfold Broker.clientAt at hclient
      rw [hclient] at hk
      cases hk
    | none =>
      rw [hk, Option.none_or] at hfind
      split at hfind
      · next heq =>
        obtain rfl := Option.some.inj hfind
        exact .inr ⟨heq.symm, rfl, rfl⟩
      · cases hfind
  refine ⟨fun id => ?_, fun k c' e hc' hx => ?_, fun k id bytes hx => ?_, fun id seq bytes out hx => ?_⟩
  · by_cases hid : id = r.routeId
    · subst hid
      have hself : (b.addRoute c r).routeOf r.routeId = some r := by rw [routeOf_addRoute c hnew, if_pos rfl]
      have hd := hgrown.downward (C := C) r.routeId
      refine ⟨fun r' _ hr' hst => ?_, ?_, ?_, fun r' hr' => ?_, fun r' hr' _ => ?_, fun r' hr' _ seq bytes hx => ?_⟩
      · obtain rfl := Option.some.inj (hself.symm.trans hr')
        exact absurd (opening.symm.trans hst) (by decide)
      · rw [hd.2.2.trans hhand]
        exact List.nil_prefix
      · rw [hd.1, hadm]
        rfl
      · obtain rfl := Option.some.inj (hself.symm.trans hr')
        rw [hd.1, hadm, first]
        rfl
      · rw [hd.2.1, hpush]
      · exact absurd rfl (hun _ (hgrown.mem_of hx rfl))
    · refine (h.at_ id).keep (by rw [routeOf_addRoute c hnew, if_neg hid]) (fun r' c' hr' hc' => ?_) (hgrown.downward id)
        fun _ _ hx => hgrown.mem_of hx rfl
      rcases hcases hc' with ⟨_, hc₀⟩ | ⟨heq, _, _⟩
      · exact ⟨c', hc₀, rfl⟩
      · obtain ⟨c₀, hc₀, _⟩ := hs.route_client hr'
        rw [heq, hclient] at hc₀
        cases hc₀
  · rcases hcases hc' with ⟨_, hc₀⟩ | ⟨_, hq, _⟩
    · obtain ⟨h1, r₀, hr₀, hst₀, hk₀⟩ := h.queue k c' e hc₀ hx
      refine ⟨h1, r₀, ?_, hst₀, hk₀⟩
      rw [routeOf_addRoute c hnew, if_neg]
      · exact hr₀
      · intro heq
        rw [heq, hnew] at hr₀
        cases hr₀
    · rw [hq] at hx
      cases hx
  · obtain ⟨f, hf⟩ := h.addressed k id bytes (hgrown.mem_of hx rfl)
    exact ⟨f, hgrown.mem hf⟩
  · exact h.faithful id seq bytes out (hgrown.mem_of hx rfl)

/-- What an event adds to the readings for the routes: `out` on the queue of the client of route `id`, and with `taken` a
host frame. -/
structure Adds (C : Config) (e : Event) (id : Nat) (out : Option Bytes) (taken : Option (Nat × Bytes)) : Prop where
  push : ∀ x, e.pushOn C x = if x = id then out else none
  take : ∀ x, e.admitOn x = if x = id then taken else none
  hand : ∀ x, e.handOn x = none

theorem Adds.readings {e : Event} {out : Option Bytes} {taken : Option (Nat × Bytes)} (h : Adds C e id out taken)
    (t : List Event) (x : Nat) :
    admits x (e :: t) = admits x t ++ (if x = id then taken else none).toList ∧
      pushes C x (e :: t) = pushes C x t ++ (if x = id then out else none).toList ∧ hands x (e :: t) = hands x t := by
  unfold admits pushes hands
  rw [picked_cons, picked_cons, picked_cons, h.push, h.take, h.hand]
  simp

theorem Downstream.add {D : List Nat} (h : Downstream C b) (hs : Sound D b) {r : Route} {e : Event} {o : Option Bytes}
    {q : Option (Nat × Bytes)} {z : Bool} (hr : b.routeOf r.routeId = some r) (hadds : Adds C e r.routeId o q)
    (opened : o.isSome = true → r.status = .opened) (notOpening : r.status ≠ .opening)
    (hself : ∃ r', b'.routeOf r.routeId = some r' ∧ r'.connectionId = r.connectionId ∧ r'.status = r.status ∧
      r'.expectedHostToClientSeq = r.expectedHostToClientSeq + q.toList.length)
    (hother : ∀ id, id ≠ r.routeId → (b'.routeOf id).map Route.down = (b.routeOf id).map Route.down)
    (hclient : ∀ k, (b'.clientAt k).map Client.pipe = (b.clientAt k).map fun c =>
      (c.routeId, if k = r.connectionId then c.queue ++ (o.map fun bytes => ⟨bytes, r.routeId, z⟩).toList else c.queue))
    (htrace : b'.trace = e :: b.trace) (hseq : ∀ seq bytes, q = some (seq, bytes) → seq = r.expectedHostToClientSeq)
    (hnone : r.status ≠ .closing → ∀ id seq bytes, e = .admitted id seq bytes none → OfExtension C bytes)
    (hfaith : ∀ id seq bytes o, e = .admitted id seq bytes (some o) → Faithful C bytes o) : Downstream C b' := by
  obtain ⟨r₁, hr₁, hconn, hstat, hexp⟩ := hself
  obtain ⟨k₀, hk₀, hkid⟩ := hs.route_client hr
  have hback : ∀ k c', b'.clientAt k = some c' → ∃ c, b.clientAt k = some c ∧ c'.routeId = c.routeId ∧
      c'.queue = if k = r.connectionId then c.queue ++ (o.map fun bytes => ⟨bytes, r.routeId, z⟩).toList
        else c.queue := by
    intro k c' hc'
    have hk := hclient k
    rw [hc', Option.map_some] at hk
    obtain ⟨c, hc, heq⟩ := Option.map_eq_some_iff.mp hk.symm
    simp only [Client.pipe, Prod.mk.injEq] at heq
    exact ⟨c, hc, heq.1.symm, heq.2.symm⟩
  have hread := hadds.readings b.trace
  refine ⟨fun id => ?_, fun k c' x hc' hx => ?_, fun k id bytes hx => ?_, fun id seq bytes o hx => ?_⟩
  · by_cases hid : id = r.routeId
    · subst hid
      have hat := h.at_ r.routeId
      obtain ⟨ha, hp, hh⟩ := hread r.routeId
      rw [if_pos rfl] at ha hp
      refine ⟨fun r' c' hr' hst hc' => ?_, ?_, ?_, fun r' hr' => ?_, fun r' hr' hst => ?_, fun r' hr' hst seq bytes hx => ?_⟩
      · obtain rfl := Option.some.inj (hr₁.symm.trans hr')
        rw [hconn] at hc'
        obtain ⟨c, hc, _, hq⟩ := hback _ c' hc'
        rw [if_pos rfl] at hq
        rw [htrace, hp, hh, hq, hat.pipe r c hr (hstat.symm.trans hst) hc]
        cases o <;> simp
      · rw [htrace, hp, hh]
        exact hat.handed.trans (List.prefix_append _ _)
      · rw [htrace, ha]
        cases q with
        | none => simpa using hat.numbered
        | some x =>
          obtain ⟨seq, bytes⟩ := x
          rw [hseq seq bytes rfl, hat.expected r hr, Option.toList_some, List.map_append, hat.numbered, List.length_append,
            List.length_singleton, List.range'_concat]
          simp [Nat.add_comm]
      · obtain rfl := Option.some.inj (hr₁.symm.trans hr')
        rw [htrace, ha, hexp, hat.expected r hr, List.length_append]
        omega
      · obtain rfl := Option.some.inj (hr₁.symm.trans hr')
        exact absurd (hstat.symm.trans hst) notOpening
      · obtain rfl := Option.some.inj (hr₁.symm.trans hr')
        rw [hstat] at hst
        rw [htrace] at hx
        rcases List.mem_cons.mp hx with hx | hx
        · exact hnone hst _ seq bytes hx.symm
        · exact hat.kept r hr hst seq bytes hx
    · obtain ⟨ha, hp, hh⟩ := hread id
      rw [if_neg hid] at ha hp
      refine (h.at_ id).keep (hother id hid) (fun r' c' hr' hc' => ?_) ?_ fun seq bytes hx => ?_
      · have hne : r'.connectionId ≠ r.connectionId := fun heq => hid (hs.same_route hr' hr heq)
        obtain ⟨c, hc, _, hq⟩ := hback _ c' hc'
        rw [if_neg hne] at hq
        exact ⟨c, hc, hq⟩
      · rw [htrace, ha, hp, hh]
        simp
      · rw [htrace] at hx
        rcases List.mem_cons.mp hx with hx | hx
        · have hx' := hadds.take id
          rw [if_neg hid, ← hx] at hx'
          simp [Event.admitOn] at hx'
        · exact hx
  · obtain ⟨c, hc, hcid, hq⟩ := hback k c' hc'
    have hroute : ∀ r₀, b.routeOf c.routeId = some r₀ → r₀.status = .opened → r₀.connectionId = k →
        ∃ r', b'.routeOf c.routeId = some r' ∧ r'.status = .opened ∧ r'.connectionId = k := by
      intro r₀ hr₀ hst₀ hk
      by_cases hid : c.routeId = r.routeId
      · rw [hid, hr] at hr₀
        obtain rfl := Option.some.inj hr₀
        exact ⟨r₁, hid ▸ hr₁, hstat.trans hst₀, hconn.trans hk⟩
      · have hdown := hother c.routeId hid
        rw [hr₀, Option.map_some] at hdown
        obtain ⟨r', hr', heq⟩ := Option.map_eq_some_iff.mp hdown
        simp only [Route.down, Prod.mk.injEq] at heq
        exact ⟨r', hr', heq.2.1.trans hst₀, heq.1.trans hk⟩
    rw [hcid]
    split at hq
    · next heq =>
      subst heq
      obtain rfl := Option.some.inj (hk₀.symm.trans hc)
      rw [hq] at hx
      rcases List.mem_append.mp hx with hx | hx
      · obtain ⟨h1, r₀, hr₀, hst₀, hk⟩ := h.queue _ k₀ x hc hx
        exact ⟨h1, hroute r₀ hr₀ hst₀ hk⟩
      · cases o with
        | none => cases hx
        | some bytes =>
          rw [Option.map_some, Option.toList_some, List.mem_singleton] at hx
          rw [hx, hkid]
          exact ⟨rfl, hkid ▸ hroute r (hkid.symm ▸ hr) (opened rfl) rfl⟩
    · rw [hq] at hx
      obtain ⟨h1, r₀, hr₀, hst₀, hk⟩ := h.queue _ c x hc hx
      exact ⟨h1, hroute r₀ hr₀ hst₀ hk⟩
  · rw [htrace] at hx ⊢
    rcases List.mem_cons.mp hx with hx | hx
    · have hx' := hadds.hand id
      rw [← hx] at hx'
      simp [Event.handOn] at hx'
    · obtain ⟨f, hf⟩ := h.addressed k id bytes hx
      exact ⟨f, List.mem_cons_of_mem _ hf⟩
  · rw [htrace] at hx
    rcases List.mem_cons.mp hx with hx | hx
    · exact hfaith id seq bytes o hx.symm
    · exact h.faithful id seq bytes o hx

theorem Downstream.hand {D : List Nat} (h : Downstream C b) (hs : Sound D b) (ht : Told b) {client : Client} {r : Route}
    {e : QueuedClientFrame} {rest : List QueuedClientFrame} (hclient : b.clientAt client.connectionId = some client)
    (head : client.queue = e :: rest) (hr : b.routeOf e.route = some r) (opened : r.status = .opened)
    (own : r.connectionId = client.connectionId)
    {g : Client → Client} (hg : ∀ c, (g c).connectionId = c.connectionId) (hroute : (g client).routeId = client.routeId)
    (hqueue : (g client).queue = rest) (hc' : ∀ k, b'.clientAt k = (b.setClient client.connectionId g).clientAt k)
    (hr' : b'.routes = b.routes) (htrace : b'.trace = .handed client.connectionId e.route e.bytes :: b.trace) : Downstream C b' := by
  have hof : ∀ id, b'.routeOf id = b.routeOf id := fun id => by
    unfold Broker.routeOf
    rw [hr']
  have hread : ∀ id, admits id b'.trace = admits id b.trace ∧ pushes C id b'.trace = pushes C id b.trace ∧
      hands id b'.trace = hands id b.trace ++ (if e.route = id then [e.bytes] else []) := by
    intro id
    rw [htrace]
    unfold admits pushes hands
    rw [picked_cons, picked_cons, picked_cons]
    simp only [Event.admitOn, Event.pushOn, Event.handOn]
    split <;> simp
  have hmem : ∀ {x : Event}, x ∈ b'.trace → (∀ k id bytes, x ≠ .handed k id bytes) → x ∈ b.trace := by
    intro x hx hne
    rw [htrace] at hx
    exact (List.mem_cons.mp hx).resolve_left fun heq => hne _ _ _ heq
  have hback : ∀ k c', b'.clientAt k = some c' → ∃ c, b.clientAt k = some c ∧ c'.routeId = c.routeId ∧
      c'.queue = if k = client.connectionId then rest else c.queue := by
    intro k c' hk
    rw [hc'] at hk
    rcases clientAt_setClient_cases hk hg with ⟨hne, h₀⟩ | ⟨rfl, c₀, h₀, rfl⟩
    · exact ⟨c', h₀, rfl, by rw [if_neg hne]⟩
    · obtain rfl := Option.some.inj (hclient.symm.trans h₀)
      exact ⟨client, h₀, hroute, by rw [if_pos rfl]; exact hqueue⟩
  refine ⟨fun id => ?_, fun k c' x hk hx => ?_, fun k id bytes hx => ?_, fun id seq bytes o hx => ?_⟩
  · obtain ⟨ha, hp, hh⟩ := hread id
    by_cases hid : id = e.route
    · subst hid
      have hat := h.at_ e.route
      rw [if_pos rfl] at hh
      have hpipe := hat.pipe r client hr opened (own ▸ hclient)
      rw [head, List.map_cons] at hpipe
      refine ⟨fun r₁ c' hr₁ _ hk => ?_, ?_, ?_, fun r₁ hr₁ => ?_, fun r₁ hr₁ hst => ?_, fun r₁ hr₁ hst seq bytes hx => ?_⟩
      · rw [hof] at hr₁
        obtain rfl := Option.some.inj (hr.symm.trans hr₁)
        obtain ⟨c, _, _, hq⟩ := hback _ c' hk
        rw [if_pos own] at hq
        rw [hp, hh, hq, hpipe, List.append_assoc]
        rfl
      · rw [hp, hh, hpipe]
        exact ⟨_, by rw [List.append_assoc]; rfl⟩
      · rw [ha]
        exact hat.numbered
      · rw [ha]
        exact hat.expected r₁ (hof e.route ▸ hr₁)
      · rw [hp]
        exact hat.unopened r₁ (hof e.route ▸ hr₁) hst
      · exact hat.kept r₁ (hof e.route ▸ hr₁) hst seq bytes (hmem hx fun _ _ _ heq => by cases heq)
    · rw [if_neg (Ne.symm hid), List.append_nil] at hh
      refine (h.at_ id).keep (by rw [hof]) (fun r₁ c' hr₁ hk => ?_) ⟨ha, hp, hh⟩ fun _ _ hx => hmem hx fun _ _ _ heq => by cases heq
      obtain ⟨c, hc, _, hq⟩ := hback _ c' hk
      have hne : r₁.connectionId ≠ client.connectionId := fun heq => hid (hs.same_route hr₁ hr (heq.trans own.symm))
      rw [if_neg hne] at hq
      exact ⟨c, hc, hq⟩
  · obtain ⟨c, hc, hcid, hq⟩ := hback k c' hk
    rw [hcid, hof]
    split at hq
    · next heq =>
      subst heq
      obtain rfl := Option.some.inj (hclient.symm.trans hc)
      exact h.queue _ client x hclient (by rw [head]; exact List.mem_cons_of_mem _ (hq ▸ hx))
    · exact h.queue k c x hc (hq ▸ hx)
  · rw [htrace] at hx ⊢
    rcases List.mem_cons.mp hx with hx | hx
    · cases hx
      exact ⟨r.routeFence, List.mem_cons_of_mem _ (own ▸ ht.created e.route r hr)⟩
    · obtain ⟨f, hf⟩ := h.addressed k id bytes hx
      exact ⟨f, List.mem_cons_of_mem _ hf⟩
  · exact h.faithful id seq bytes o (hmem hx fun _ _ _ heq => by cases heq)

end

end Relay
end TmuxWorktree

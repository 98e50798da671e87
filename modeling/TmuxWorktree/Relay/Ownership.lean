import Mathlib.Data.List.Nodup
import Mathlib.Logic.Function.Basic
import TmuxWorktree.Relay.State
/-!
# Ownership — who owns a host, as an abstract machine

A host is owned by at most one carrier, a newer carrier takes over in two steps, and a route lives on the owner of its
host.  The broker spreads this over four maps and two sets of ids; here it is a machine of its own, with one function for
each change the broker makes and the invariant `Owned`.  `D` lists the carriers whose teardown has begun: until it ends,
such a carrier may be in no map and still have routes.
-/
namespace TmuxWorktree
namespace Relay

/-- What ownership depends on of a carrier. -/
structure CarrierFace where
  attached : Bool
  transportId : Nat
  hostId : Nat
  status : CarrierStatus
  connectorId : Option Nat
  greeted : Bool
  registration : Option Registration
  routeIds : List Nat

structure RouteFace where
  connectionId : Nat
  connectorId : Nat
  carrierTransportId : Nat
  hostId : Nat

structure RecordFace where
  online : Bool
  revision : Nat
  connectorId : Option Nat

/-- **Who owns what**: carriers by serial number, owners and records by host, routes by id, clients (their route) by
connection. -/
@[ext]
structure Ownership where
  carrier : Nat → Option CarrierFace
  active : Nat → Option Nat
  registering : Nat → Option Nat
  record : Nat → Option RecordFace
  route : Nat → Option RouteFace
  client : Nat → Option Nat

namespace Ownership

def revision (o : Ownership) (host : Nat) : Nat := ((o.record host).map RecordFace.revision).getD 0

def ownerTransport (o : Ownership) (host : Nat) : Option Nat :=
  (o.active host).bind fun s => (o.carrier s).map CarrierFace.transportId

/-! ## Changes -/

def setCarrier (o : Ownership) (s : Nat) (c : CarrierFace) : Ownership :=
  { o with carrier := Function.update o.carrier s (some c) }

def publish (o : Ownership) (host : Nat) (online : Bool) (connectorId : Option Nat) : Ownership :=
  { o with record := Function.update o.record host (some ⟨online, o.revision host + 1, connectorId⟩) }

def attach (o : Ownership) (s t host : Nat) : Ownership :=
  o.setCarrier s ⟨true, t, host, .pending, none, false, none, []⟩

def enroll (o : Ownership) (s : Nat) (c : CarrierFace) (k : Nat) (g : Registration) : Ownership :=
  { o.setCarrier s { c with connectorId := some k, greeted := true, status := .registering, registration := some g } with
    registering := Function.update o.registering c.hostId (some s) }

def activate (o : Ownership) (s : Nat) (c : CarrierFace) : Ownership :=
  { (o.setCarrier s { c with registration := none, status := .active }).publish c.hostId true c.connectorId with
    registering := Function.update o.registering c.hostId none
    active := Function.update o.active c.hostId (some s) }

def offline (o : Ownership) (host : Nat) : Ownership :=
  { o.publish host false none with active := Function.update o.active host none }

def unregister (o : Ownership) (host : Nat) : Ownership :=
  { o with registering := Function.update o.registering host none }

def addRoute (o : Ownership) (s : Nat) (c : CarrierFace) (id : Nat) (r : RouteFace) : Ownership :=
  { o.setCarrier s { c with routeIds := c.routeIds ++ [id] } with
    route := Function.update o.route id (some r)
    client := Function.update o.client r.connectionId (some id) }

def dropRoute (o : Ownership) (id : Nat) (r : RouteFace) : Ownership :=
  { o with
    carrier := fun s => (o.carrier s).map fun c =>
      if c.attached ∧ c.transportId = r.carrierTransportId then { c with routeIds := c.routeIds.erase id } else c
    route := Function.update o.route id none
    client := Function.update o.client r.connectionId none }

end Ownership

/-- **At most one owner and one candidate for each host**, and every route on the owner of its host. -/
structure Owned (D : List Nat) (o : Ownership) : Prop where
  transports : ∀ s c s' c', o.carrier s = some c → o.carrier s' = some c' → c.attached = true → c'.attached = true →
    c.transportId = c'.transportId → s = s'
  active : ∀ host s, o.active host = some s → ∃ c, o.carrier s = some c ∧ c.hostId = host ∧ c.attached = true ∧
    c.status = .active ∧ c.connectorId.isSome = true ∧ c.greeted = true
  activeOf : ∀ s c, o.carrier s = some c → c.status = .active → s ∉ D → o.active c.hostId = some s
  registering : ∀ host s, o.registering host = some s → ∃ c, o.carrier s = some c ∧ c.hostId = host ∧
    c.attached = true ∧ c.status = .registering ∧ c.connectorId.isSome = true ∧ c.greeted = true
  registeringOf : ∀ s c, o.carrier s = some c → c.status = .registering → s ∉ D → o.registering c.hostId = some s
  /-- A registration whose base is the current revision still names the owner it is to replace. -/
  base : ∀ s c g, o.carrier s = some c → c.status = .registering → s ∉ D → c.registration = some g →
    g.baseDirectoryRevision ≤ o.revision c.hostId ∧
      (g.baseDirectoryRevision = o.revision c.hostId → g.previousTransportId = o.ownerTransport c.hostId)
  /-- The directory says online exactly of the hosts that have an owner, and names the owner's connector. -/
  directory : ∀ host, ((o.record host).any RecordFace.online = true ↔ (o.active host).isSome = true) ∧
    ∀ d s c, o.record host = some d → o.active host = some s → o.carrier s = some c → d.connectorId = c.connectorId
  routed : ∀ id r, o.route id = some r → ∃ s c, o.carrier s = some c ∧ c.attached = true ∧
    c.transportId = r.carrierTransportId ∧ c.connectorId = some r.connectorId ∧ c.hostId = r.hostId ∧ id ∈ c.routeIds ∧
    (c.status = .active ∨ s ∈ D)
  listed : ∀ s c id, o.carrier s = some c → id ∈ c.routeIds →
    c.attached = true ∧ ∃ r, o.route id = some r ∧ r.carrierTransportId = c.transportId
  once : ∀ s c, o.carrier s = some c → c.routeIds.Nodup
  idle : ∀ s c, o.carrier s = some c → c.status ≠ .active → s ∉ D → c.routeIds = []
  gone : ∀ s c, o.carrier s = some c → c.attached = false → c.status = .superseded ∨ c.status = .closed
  clientOf : ∀ id r, o.route id = some r → o.client r.connectionId = some id
  routeOf : ∀ k id, o.client k = some id → ∃ r, o.route id = some r ∧ r.connectionId = k

namespace Owned

variable {D : List Nat} {o : Ownership}

theorem carrier_unique (h : Owned D o) {s s' : Nat} {c c' : CarrierFace} (hc : o.carrier s = some c)
    (hc' : o.carrier s' = some c') (ha : c.attached = true) (ha' : c'.attached = true)
    (ht : c.transportId = c'.transportId) : s = s' ∧ c = c' := by
  have hs := h.transports s c s' c' hc hc' ha ha' ht
  subst hs
  exact ⟨rfl, Option.some.inj (hc.symm.trans hc')⟩

theorem mark (h : Owned D o) (s : Nat) : Owned (s :: D) o where
  transports := h.transports
  active := h.active
  activeOf s' c hc ha hD := h.activeOf s' c hc ha fun hm => hD (List.mem_cons_of_mem s hm)
  registering := h.registering
  registeringOf s' c hc ha hD := h.registeringOf s' c hc ha fun hm => hD (List.mem_cons_of_mem s hm)
  base s' c g hc hs hD hg := h.base s' c g hc hs (fun hm => hD (List.mem_cons_of_mem s hm)) hg
  directory := h.directory
  routed id r hr := by
    obtain ⟨s', c, hc, ha, ht, hk, hh, hid, hst⟩ := h.routed id r hr
    exact ⟨s', c, hc, ha, ht, hk, hh, hid, hst.imp_right (List.mem_cons_of_mem s)⟩
  listed := h.listed
  once := h.once
  idle s' c hc ha hD := h.idle s' c hc ha fun hm => hD (List.mem_cons_of_mem s hm)
  gone := h.gone
  clientOf := h.clientOf
  routeOf := h.routeOf

theorem unmark {s : Nat} {c : CarrierFace} (h : Owned (s :: D) o) (hc : o.carrier s = some c)
    (hst : c.status = .superseded ∨ c.status = .closed) (hempty : c.routeIds = []) : Owned D o := by
  have hne : ∀ {s' c'}, o.carrier s' = some c' → c'.status ≠ .superseded → c'.status ≠ .closed → s' ∉ D → s' ∉ s :: D := by
    intro s' c' hc' h1 h2 hD hm
    rcases List.mem_cons.mp hm with rfl | hm
    · obtain rfl := Option.some.inj (hc.symm.trans hc')
      exact hst.elim h1 h2
    · exact hD hm
  exact
    { transports := h.transports
      active := h.active
      activeOf := fun s' c' hc' ha hD => h.activeOf s' c' hc' ha (hne hc' (by simp [ha]) (by simp [ha]) hD)
      registering := h.registering
      registeringOf := fun s' c' hc' ha hD => h.registeringOf s' c' hc' ha (hne hc' (by simp [ha]) (by simp [ha]) hD)
      base := fun s' c' g hc' hs hD hg => h.base s' c' g hc' hs (hne hc' (by simp [hs]) (by simp [hs]) hD) hg
      directory := h.directory
      routed := fun id r hr => by
        obtain ⟨s', c', hc', ha, ht, hk, hh, hid, hst'⟩ := h.routed id r hr
        refine ⟨s', c', hc', ha, ht, hk, hh, hid, hst'.imp_right fun hm => ?_⟩
        rcases List.mem_cons.mp hm with rfl | hm
        · obtain rfl := Option.some.inj (hc.symm.trans hc')
          rw [hempty] at hid
          cases hid
        · exact hm
      listed := h.listed
      once := h.once
      idle := fun s' c' hc' ha hD => by
        by_cases hs : s' = s
        · subst hs
          obtain rfl := Option.some.inj (hc.symm.trans hc')
          exact hempty
        · exact h.idle s' c' hc' ha fun hm => (List.mem_cons.mp hm).elim hs hD
      gone := h.gone
      clientOf := h.clientOf
      routeOf := h.routeOf }

end Owned

section
variable {o : Ownership} {s s' : Nat} {c c' : CarrierFace}

theorem Ownership.carrier_cases (h : (o.setCarrier s c).carrier s' = some c') :
    (s' = s ∧ c' = c) ∨ (s' ≠ s ∧ o.carrier s' = some c') := by
  by_cases hs : s' = s
  · subst hs
    simp only [setCarrier, Function.update_self, Option.some.injEq] at h
    exact .inl ⟨rfl, h.symm⟩
  · simp only [setCarrier, Function.update_of_ne hs] at h
    exact .inr ⟨hs, h⟩

theorem Ownership.carrier_all {P : Nat → CarrierFace → Prop} (hs : P s c) (hold : ∀ x cx, o.carrier x = some cx → P x cx) :
    ∀ x cx, (o.setCarrier s c).carrier x = some cx → P x cx := by
  intro x cx hx
  rcases carrier_cases hx with ⟨rfl, rfl⟩ | ⟨_, hx⟩
  · exact hs
  · exact hold x cx hx

theorem Ownership.carrier_self : (o.setCarrier s c).carrier s = some c := by simp [setCarrier]

theorem Ownership.carrier_ne (h : s' ≠ s) : (o.setCarrier s c).carrier s' = o.carrier s' := by simp [setCarrier, h]

end

namespace Owned

variable {D : List Nat} {o : Ownership} {s : Nat} {c : CarrierFace}

theorem ownerTransport_setCarrier {e : CarrierFace} (hc : o.carrier s = some c) (ht : e.transportId = c.transportId)
    (host : Nat) : (o.setCarrier s e).ownerTransport host = o.ownerTransport host := by
  show ((o.active host).bind fun x => ((o.setCarrier s e).carrier x).map CarrierFace.transportId) = _
  unfold Ownership.ownerTransport
  congr 1
  funext x
  by_cases hx : x = s
  · rw [hx, Ownership.carrier_self, hc]
    simp [ht]
  · rw [Ownership.carrier_ne hx]

theorem attach {t g : Nat} (h : Owned D o) (hs : o.carrier s = none)
    (ht : ∀ s' c', o.carrier s' = some c' → c'.attached = true → c'.transportId ≠ t) : Owned D (o.attach s t g) := by
  have hne : ∀ {s' c'}, o.carrier s' = some c' → s' ≠ s := fun hc' heq => by rw [heq, hs] at hc'; cases hc'
  have hkeep : ∀ {s' c'}, o.carrier s' = some c' → (o.attach s t g).carrier s' = some c' := fun hc' => by
    unfold Ownership.attach
    rw [Ownership.carrier_ne (hne hc')]
    exact hc'
  refine
    { transports := fun s₁ c₁ s₂ c₂ h₁ h₂ ha₁ ha₂ heq => ?_
      active := fun k s₁ hk => ?_
      activeOf := Ownership.carrier_all (fun hst => by cases hst) h.activeOf
      registering := fun k s₁ hk => ?_
      registeringOf := Ownership.carrier_all (fun hst => by cases hst) h.registeringOf
      base := fun s₁ c₁ g h₁ hst hD hg => ?_
      directory := fun k => ⟨(h.directory k).1, fun d s₁ c₁ hd hk h₁ => ?_⟩
      routed := fun id r hr => ?_
      listed := fun s₁ c₁ id h₁ hid => ?_
      once := Ownership.carrier_all List.nodup_nil h.once
      idle := Ownership.carrier_all (fun _ _ => rfl) h.idle
      gone := Ownership.carrier_all (fun ha => by cases ha) h.gone
      clientOf := h.clientOf
      routeOf := h.routeOf }
  · rcases Ownership.carrier_cases h₁ with ⟨rfl, rfl⟩ | ⟨_, h₁'⟩ <;>
      rcases Ownership.carrier_cases h₂ with ⟨rfl, rfl⟩ | ⟨_, h₂'⟩
    · rfl
    · exact absurd heq.symm (ht s₂ c₂ h₂' ha₂)
    · exact absurd heq (ht s₁ c₁ h₁' ha₁)
    · exact h.transports s₁ c₁ s₂ c₂ h₁' h₂' ha₁ ha₂ heq
  · obtain ⟨c₁, h₁, hrest⟩ := h.active k s₁ hk
    exact ⟨c₁, hkeep h₁, hrest⟩
  · obtain ⟨c₁, h₁, hrest⟩ := h.registering k s₁ hk
    exact ⟨c₁, hkeep h₁, hrest⟩
  · rcases Ownership.carrier_cases h₁ with ⟨rfl, rfl⟩ | ⟨_, h₁⟩
    · cases hst
    · have hbase := h.base s₁ c₁ g h₁ hst hD hg
      refine ⟨hbase.1, fun heq => (hbase.2 heq).trans ?_⟩
      -- the owner is another carrier than the new one
      unfold Ownership.ownerTransport
      cases hk : o.active c₁.hostId with
      | none => simp [Ownership.attach, Ownership.setCarrier, hk]
      | some x =>
        obtain ⟨cx, hcx, _⟩ := h.active _ x hk
        simp [Ownership.attach, Ownership.setCarrier, hk, hne hcx]
  · rcases Ownership.carrier_cases h₁ with ⟨rfl, rfl⟩ | ⟨_, h₁⟩
    · obtain ⟨cx, hcx, _⟩ := h.active k s₁ hk
      exact absurd rfl (hne hcx)
    · exact (h.directory k).2 d s₁ c₁ hd hk h₁
  · obtain ⟨s₁, c₁, h₁, hrest⟩ := h.routed id r hr
    exact ⟨s₁, c₁, hkeep h₁, hrest⟩
  · rcases Ownership.carrier_cases h₁ with ⟨rfl, rfl⟩ | ⟨_, h₁⟩
    · cases hid
    · exact h.listed s₁ c₁ id h₁ hid

/-- **A carrier changes its status**, its registration, its connector or whether it is attached, and with it the maps of
owners: what the change has to respect. -/
theorem restatus {o' : Ownership} {e : CarrierFace} (h : Owned D o) (hc : o.carrier s = some c)
    (carrier' : o'.carrier = (o.setCarrier s e).carrier) (route' : o'.route = o.route) (client' : o'.client = o.client)
    (same : e.transportId = c.transportId ∧ e.hostId = c.hostId ∧ e.routeIds = c.routeIds)
    (hatt : e.attached = true → c.attached = true)
    (hkeep : c.routeIds = [] ∨ (e.attached = c.attached ∧ e.connectorId = c.connectorId ∧
      (c.status = .active → e.status = .active ∨ s ∈ D)))
    (hact : ∀ host x, o'.active host = some x → (x = s ∧ host = c.hostId ∧ e.attached = true ∧ e.status = .active ∧
      e.connectorId.isSome = true ∧ e.greeted = true) ∨ (x ≠ s ∧ o.active host = some x))
    (hactOf : ∀ x cx, (o.setCarrier s e).carrier x = some cx → cx.status = .active → x ∉ D → o'.active cx.hostId = some x)
    (hreg : ∀ host x, o'.registering host = some x → (x = s ∧ host = c.hostId ∧ e.attached = true ∧
      e.status = .registering ∧ e.connectorId.isSome = true ∧ e.greeted = true) ∨
        (x ≠ s ∧ o.registering host = some x))
    (hregOf : ∀ x cx, (o.setCarrier s e).carrier x = some cx → cx.status = .registering → x ∉ D →
      o'.registering cx.hostId = some x)
    (hbase : ∀ x cx g, (o.setCarrier s e).carrier x = some cx → cx.status = .registering → x ∉ D →
      cx.registration = some g → g.baseDirectoryRevision ≤ o'.revision cx.hostId ∧
        (g.baseDirectoryRevision = o'.revision cx.hostId → g.previousTransportId = o'.ownerTransport cx.hostId))
    (hdir : ∀ host, ((o'.record host).any RecordFace.online = true ↔ (o'.active host).isSome = true) ∧
      ∀ d x cx, o'.record host = some d → o'.active host = some x → (o.setCarrier s e).carrier x = some cx →
        d.connectorId = cx.connectorId)
    (hidle : e.status ≠ .active → s ∉ D → c.routeIds = [])
    (hgone : e.attached = false → e.status = .superseded ∨ e.status = .closed) : Owned D o' := by
  refine
    { transports := fun s₁ e' s₂ c₂ h₁ h₂ ha₁ ha₂ heq => ?_
      active := fun host x hx => ?_
      activeOf := fun x cx hx => hactOf x cx (carrier' ▸ hx)
      registering := fun host x hx => ?_
      registeringOf := fun x cx hx => hregOf x cx (carrier' ▸ hx)
      base := fun x cx g hx => hbase x cx g (carrier' ▸ hx)
      directory := fun host => ⟨(hdir host).1, fun d x cx hd hx hcx => (hdir host).2 d x cx hd hx (carrier' ▸ hcx)⟩
      routed := fun id r hr => ?_
      listed := fun x cx id hx hid => ?_
      once := fun x cx hx => ?_
      idle := fun x cx hx hst hD => ?_
      gone := fun x cx hx ha => ?_
      clientOf := by rw [route', client']; exact h.clientOf
      routeOf := by rw [route', client']; exact h.routeOf }
  · rw [carrier'] at h₁ h₂
    rcases Ownership.carrier_cases h₁ with ⟨rfl, rfl⟩ | ⟨_, h₁'⟩ <;>
      rcases Ownership.carrier_cases h₂ with ⟨rfl, rfl⟩ | ⟨_, h₂'⟩
    · rfl
    · exact h.transports _ c s₂ c₂ hc h₂' (hatt ha₁) ha₂ (same.1.symm.trans heq)
    · exact h.transports s₁ e' _ c h₁' hc ha₁ (hatt ha₂) (heq.trans same.1)
    · exact h.transports s₁ e' s₂ c₂ h₁' h₂' ha₁ ha₂ heq
  · rw [carrier']
    rcases hact host x hx with ⟨rfl, rfl, hrest⟩ | ⟨hne, hx⟩
    · exact ⟨e, Ownership.carrier_self, same.2.1, hrest⟩
    · obtain ⟨cx, hcx, hrest⟩ := h.active host x hx
      exact ⟨cx, by rw [Ownership.carrier_ne hne]; exact hcx, hrest⟩
  · rw [carrier']
    rcases hreg host x hx with ⟨rfl, rfl, hrest⟩ | ⟨hne, hx⟩
    · exact ⟨e, Ownership.carrier_self, same.2.1, hrest⟩
    · obtain ⟨cx, hcx, hrest⟩ := h.registering host x hx
      exact ⟨cx, by rw [Ownership.carrier_ne hne]; exact hcx, hrest⟩
  · rw [route'] at hr
    rw [carrier']
    obtain ⟨x, cx, hx, ha, ht, hk, hh, hid, hst⟩ := h.routed id r hr
    by_cases hxs : x = s
    · subst hxs
      obtain rfl := Option.some.inj (hc.symm.trans hx)
      rcases hkeep with hnil | ⟨hatt', hconn, hstay⟩
      · rw [hnil] at hid
        cases hid
      · refine ⟨x, e, Ownership.carrier_self, hatt'.trans ha, same.1.trans ht, hconn.trans hk, same.2.1.trans hh,
          same.2.2 ▸ hid, ?_⟩
        exact hst.elim hstay .inr
    · exact ⟨x, cx, by rw [Ownership.carrier_ne hxs]; exact hx, ha, ht, hk, hh, hid, hst⟩
  · rw [carrier'] at hx
    rw [route']
    rcases Ownership.carrier_cases hx with ⟨rfl, rfl⟩ | ⟨_, hx⟩
    · have hid' : id ∈ c.routeIds := same.2.2 ▸ hid
      obtain ⟨ha, r, hr, ht⟩ := h.listed x c id hc hid'
      refine ⟨?_, r, hr, ht.trans same.1.symm⟩
      rcases hkeep with hnil | ⟨hatt', _⟩
      · rw [hnil] at hid'
        cases hid'
      · exact hatt'.trans ha
    · exact h.listed x cx id hx hid
  · rw [carrier'] at hx
    rcases Ownership.carrier_cases hx with ⟨rfl, rfl⟩ | ⟨_, hx⟩
    · rw [same.2.2]
      exact h.once x c hc
    · exact h.once x cx hx
  · rw [carrier'] at hx
    rcases Ownership.carrier_cases hx with ⟨rfl, rfl⟩ | ⟨_, hx⟩
    · rw [same.2.2]
      exact hidle hst hD
    · exact h.idle x cx hx hst hD
  · rw [carrier'] at hx
    rcases Ownership.carrier_cases hx with ⟨rfl, rfl⟩ | ⟨_, hx⟩
    · exact hgone ha
    · exact h.gone x cx hx ha

theorem ne_of_active (h : Owned D o) {host x : Nat} (hx : o.active host = some x) (hc : o.carrier s = some c)
    (hst : c.status ≠ .active) : x ≠ s := by
  rintro rfl
  obtain ⟨cx, hcx, _, _, hact, _⟩ := h.active host x hx
  obtain rfl := Option.some.inj (hc.symm.trans hcx)
  exact hst hact

theorem ne_of_registering (h : Owned D o) {host x : Nat} (hx : o.registering host = some x) (hc : o.carrier s = some c)
    (hst : c.status ≠ .registering) : x ≠ s := by
  rintro rfl
  obtain ⟨cx, hcx, _, _, hreg, _⟩ := h.registering host x hx
  obtain rfl := Option.some.inj (hc.symm.trans hcx)
  exact hst hreg

theorem base_of_same (h : Owned D o) {o' : Ownership} {x : Nat} {cx : CarrierFace} {g : Registration}
    (hx : o.carrier x = some cx) (hst : cx.status = .registering) (hD : x ∉ D) (hg : cx.registration = some g)
    (hrev : o'.revision cx.hostId = o.revision cx.hostId)
    (hown : o'.ownerTransport cx.hostId = o.ownerTransport cx.hostId) :
    g.baseDirectoryRevision ≤ o'.revision cx.hostId ∧
      (g.baseDirectoryRevision = o'.revision cx.hostId → g.previousTransportId = o'.ownerTransport cx.hostId) := by
  rw [hrev, hown]
  exact h.base x cx g hx hst hD hg

theorem enroll {k : Nat} {g : Registration} (h : Owned D o) (hc : o.carrier s = some c) (ha : c.attached = true)
    (hst : c.status = .pending) (hD : s ∉ D) (hfree : o.registering c.hostId = none)
    (hbase : g.baseDirectoryRevision = o.revision c.hostId) (hprev : g.previousTransportId = o.ownerTransport c.hostId) :
    Owned D (o.enroll s c k g) := by
  have hnil : c.routeIds = [] := h.idle s c hc (by simp [hst]) hD
  let c₁ : CarrierFace :=
    { c with connectorId := some k, greeted := true, status := .registering, registration := some g }
  have hown : ∀ host, (o.enroll s c k g).ownerTransport host = o.ownerTransport host := fun host =>
    ownerTransport_setCarrier (e := c₁) hc rfl host
  refine h.restatus (e := c₁) hc rfl rfl rfl ⟨rfl, rfl, rfl⟩ id (.inl hnil) (fun host x hx => ?_)
    (Ownership.carrier_all (fun hact => by cases hact) h.activeOf) (fun host x hx => ?_) (fun x cx hx hreg hxD => ?_)
    (fun x cx g' hx hreg hxD hg' => ?_) (fun host => ⟨(h.directory host).1, fun d x cx hd hx hcx => ?_⟩) (fun _ _ => hnil)
    (fun hf => ?_)
  · exact .inr ⟨h.ne_of_active hx hc (by simp [hst]), hx⟩
  · by_cases hh : host = c.hostId
    · subst hh
      have hxs : x = s := by simpa [Ownership.enroll] using hx.symm
      exact .inl ⟨hxs, rfl, ha, rfl, rfl, rfl⟩
    · have hx' : o.registering host = some x := by simpa [Ownership.enroll, hh] using hx
      exact .inr ⟨h.ne_of_registering hx' hc (by simp [hst]), hx'⟩
  · rcases Ownership.carrier_cases hx with ⟨rfl, rfl⟩ | ⟨hne, hx⟩
    · simp [Ownership.enroll, c₁]
    · have hx' := h.registeringOf x cx hx hreg hxD
      have hh : cx.hostId ≠ c.hostId := fun heq => by rw [heq, hfree] at hx'; cases hx'
      simpa [Ownership.enroll, hh] using hx'
  · rcases Ownership.carrier_cases hx with ⟨rfl, rfl⟩ | ⟨_, hx⟩
    · obtain rfl : g = g' := Option.some.inj hg'
      exact ⟨Nat.le_of_eq hbase, fun _ => hprev.trans (hown c.hostId).symm⟩
    · exact h.base_of_same hx hreg hxD hg' rfl (hown cx.hostId)
  · rcases Ownership.carrier_cases hcx with ⟨rfl, rfl⟩ | ⟨_, hcx⟩
    · exact absurd rfl (h.ne_of_active hx hc (by simp [hst]))
    · exact (h.directory host).2 d x cx hd hx hcx
  · rw [show c₁.attached = c.attached from rfl, ha] at hf
    cases hf

theorem activate (h : Owned D o) (hc : o.carrier s = some c) (hD : s ∉ D) (hreg : o.registering c.hostId = some s)
    (hprev : ∀ x, o.active c.hostId = some x → x ∈ D) : Owned D (o.activate s c) := by
  obtain ⟨c', hc', _, ha, hst, hconn, hgreet⟩ := h.registering _ s hreg
  obtain rfl := Option.some.inj (hc.symm.trans hc')
  have hnil : c.routeIds = [] := h.idle s c hc (by simp [hst]) hD
  let c₁ : CarrierFace := { c with registration := none, status := .active }
  have hact : ∀ {host x}, host ≠ c.hostId → ((o.activate s c).active host = some x ↔ o.active host = some x) := by
    intro host x hh
    simp [Ownership.activate, hh]
  refine h.restatus (e := c₁) hc rfl rfl rfl ⟨rfl, rfl, rfl⟩ id (.inl hnil) (fun host x hx => ?_)
    (fun x cx hx hst' hxD => ?_) (fun host x hx => ?_) (fun x cx hx hreg' hxD => ?_)
    (fun x cx g hx hreg' hxD hg => ?_) (fun host => ?_) (fun hne => absurd rfl hne) (fun hf => ?_)
  · by_cases hh : host = c.hostId
    · subst hh
      have hxs : x = s := by simpa [Ownership.activate] using hx.symm
      exact .inl ⟨hxs, rfl, ha, rfl, hconn, hgreet⟩
    · have hx' := (hact hh).mp hx
      exact .inr ⟨h.ne_of_active hx' hc (by simp [hst]), hx'⟩
  · rcases Ownership.carrier_cases hx with ⟨rfl, rfl⟩ | ⟨_, hx⟩
    · simp [Ownership.activate, c₁]
    · have hx' := h.activeOf x cx hx hst' hxD
      have hh : cx.hostId ≠ c.hostId := fun heq => hxD (hprev x (heq ▸ hx'))
      exact (hact hh).mpr hx'
  · by_cases hh : host = c.hostId
    · subst hh
      simp [Ownership.activate] at hx
    · have hx' : o.registering host = some x := by simpa [Ownership.activate, hh] using hx
      refine .inr ⟨?_, hx'⟩
      rintro rfl
      obtain ⟨cx, hcx, hhost, _⟩ := h.registering host x hx'
      obtain rfl := Option.some.inj (hc.symm.trans hcx)
      exact hh hhost.symm
  · rcases Ownership.carrier_cases hx with ⟨rfl, rfl⟩ | ⟨hne, hx⟩
    · cases hreg'
    · have hx' := h.registeringOf x cx hx hreg' hxD
      have hh : cx.hostId ≠ c.hostId := by
        intro heq
        rw [heq, hreg] at hx'
        exact hne (Option.some.inj hx').symm
      simpa [Ownership.activate, hh] using hx'
  · rcases Ownership.carrier_cases hx with ⟨rfl, rfl⟩ | ⟨hne, hx⟩
    · cases hreg'
    · have hx' := h.registeringOf x cx hx hreg' hxD
      have hh : cx.hostId ≠ c.hostId := by
        intro heq
        rw [heq, hreg] at hx'
        exact hne (Option.some.inj hx').symm
      refine h.base_of_same hx hreg' hxD hg ?_ ?_
      · simp [Ownership.activate, Ownership.publish, Ownership.setCarrier, Ownership.revision, hh]
      · have hsame := ownerTransport_setCarrier (e := c₁) hc rfl cx.hostId
        rw [← hsame]
        simp [Ownership.activate, Ownership.publish, Ownership.setCarrier, Ownership.ownerTransport, hh, c₁]
  · by_cases hh : host = c.hostId
    · subst hh
      refine ⟨by simp [Ownership.activate, Ownership.publish], fun d x cx hd hx hcx => ?_⟩
      have hxs : x = s := by simpa [Ownership.activate] using hx.symm
      subst hxs
      rw [Ownership.carrier_self] at hcx
      obtain rfl := Option.some.inj hcx
      simp only [Ownership.activate, Ownership.publish, Function.update_self, Option.some.injEq] at hd
      rw [← hd]
    · have hrec : (o.activate s c).record host = o.record host := by
        simp [Ownership.activate, Ownership.publish, Ownership.setCarrier, hh]
      have hactive : (o.activate s c).active host = o.active host := by simp [Ownership.activate, hh]
      rw [hrec, hactive]
      refine ⟨(h.directory host).1, fun d x cx hd hx hcx => ?_⟩
      rw [Ownership.carrier_ne (h.ne_of_active hx hc (by simp [hst]))] at hcx
      exact (h.directory host).2 d x cx hd hx hcx
  · rw [show c₁.attached = c.attached from rfl, ha] at hf
    cases hf

theorem wither {z : CarrierStatus} {j : Option Registration} (h : Owned D o) (hc : o.carrier s = some c) (hD : s ∈ D)
    (hact : ∀ host, o.active host = some s → z = .active) (hreg : ∀ host, o.registering host = some s → z = .registering)
    (hgone : c.attached = false → z = .superseded ∨ z = .closed) :
    Owned D (o.setCarrier s { c with status := z, registration := j }) := by
  let c₁ : CarrierFace := { c with status := z, registration := j }
  refine h.restatus (e := c₁) hc rfl rfl rfl ⟨rfl, rfl, rfl⟩ id (.inr ⟨rfl, rfl, fun _ => .inr hD⟩) (fun host x hx => ?_)
    (Ownership.carrier_all (fun _ hxD => absurd hD hxD) h.activeOf) (fun host x hx => ?_)
    (Ownership.carrier_all (fun _ hxD => absurd hD hxD) h.registeringOf) (fun x cx g hx hst hxD hg => ?_)
    (fun host => ⟨(h.directory host).1, fun d x cx hd hx hcx => ?_⟩) (fun _ hn => absurd hD hn) hgone
  · by_cases hxs : x = s
    · subst hxs
      obtain ⟨cx, hcx, hhost, ha, _, hconn, hgreet⟩ := h.active host x hx
      obtain rfl := Option.some.inj (hc.symm.trans hcx)
      exact .inl ⟨rfl, hhost.symm, ha, hact host hx, hconn, hgreet⟩
    · exact .inr ⟨hxs, hx⟩
  · by_cases hxs : x = s
    · subst hxs
      obtain ⟨cx, hcx, hhost, ha, _, hconn, hgreet⟩ := h.registering host x hx
      obtain rfl := Option.some.inj (hc.symm.trans hcx)
      exact .inl ⟨rfl, hhost.symm, ha, hreg host hx, hconn, hgreet⟩
    · exact .inr ⟨hxs, hx⟩
  · rcases Ownership.carrier_cases hx with ⟨rfl, rfl⟩ | ⟨_, hx⟩
    · exact absurd hD hxD
    · exact h.base_of_same hx hst hxD hg rfl (ownerTransport_setCarrier (e := c₁) hc rfl _)
  · rcases Ownership.carrier_cases hcx with ⟨rfl, rfl⟩ | ⟨_, hcx⟩
    · exact (h.directory host).2 d x c hd hx hc
    · exact (h.directory host).2 d x cx hd hx hcx

theorem detach (h : Owned D o) (hc : o.carrier s = some c) (hD : s ∈ D) (hempty : c.routeIds = [])
    (hst : c.status = .superseded ∨ c.status = .closed) : Owned D (o.setCarrier s { c with attached := false }) := by
  have hnotActive : c.status ≠ .active := by rcases hst with hst | hst <;> simp [hst]
  have hnotRegistering : c.status ≠ .registering := by rcases hst with hst | hst <;> simp [hst]
  let c₁ : CarrierFace := { c with attached := false }
  refine h.restatus (e := c₁) hc rfl rfl rfl ⟨rfl, rfl, rfl⟩ (fun hf => by cases hf) (.inl hempty)
    (fun host x hx => .inr ⟨h.ne_of_active hx hc hnotActive, hx⟩)
    (Ownership.carrier_all (fun hst' => absurd hst' hnotActive) h.activeOf)
    (fun host x hx => .inr ⟨h.ne_of_registering hx hc hnotRegistering, hx⟩)
    (Ownership.carrier_all (fun hst' => absurd hst' hnotRegistering) h.registeringOf) (fun x cx g hx hst' hxD hg => ?_)
    (fun host => ⟨(h.directory host).1, fun d x cx hd hx hcx => ?_⟩) (fun _ _ => hempty) (fun _ => hst)
  · rcases Ownership.carrier_cases hx with ⟨rfl, rfl⟩ | ⟨_, hx⟩
    · exact absurd hst' hnotRegistering
    · exact h.base_of_same hx hst' hxD hg rfl (ownerTransport_setCarrier (e := c₁) hc rfl _)
  · rcases Ownership.carrier_cases hcx with ⟨rfl, rfl⟩ | ⟨_, hcx⟩
    · exact absurd rfl (h.ne_of_active hx hc hnotActive)
    · exact (h.directory host).2 d x cx hd hx hcx

theorem rebase {g' : Registration} (h : Owned D o) (hc : o.carrier s = some c) (hst : c.status = .registering)
    (hfree : o.active c.hostId = none) (hbase : g'.baseDirectoryRevision = o.revision c.hostId)
    (hprev : g'.previousTransportId = none) : Owned D (o.setCarrier s { c with registration := some g' }) := by
  let c₁ : CarrierFace := { c with registration := some g' }
  refine h.restatus (e := c₁) hc rfl rfl rfl ⟨rfl, rfl, rfl⟩ id (.inr ⟨rfl, rfl, fun ha => .inl ha⟩)
    (fun host x hx => .inr ⟨h.ne_of_active hx hc (by simp [hst]), hx⟩)
    (Ownership.carrier_all (h.activeOf s c hc) h.activeOf) (fun host x hx => ?_)
    (Ownership.carrier_all (h.registeringOf s c hc) h.registeringOf) (fun x cx g hx hst' hxD hg => ?_)
    (fun host => ⟨(h.directory host).1, fun d x cx hd hx hcx => ?_⟩) (fun hne hn => h.idle s c hc hne hn)
    (fun hf => h.gone s c hc hf)
  · by_cases hxs : x = s
    · subst hxs
      obtain ⟨cx, hcx, hhost, hrest⟩ := h.registering host x hx
      obtain rfl := Option.some.inj (hc.symm.trans hcx)
      exact .inl ⟨rfl, hhost.symm, hrest⟩
    · exact .inr ⟨hxs, hx⟩
  · rcases Ownership.carrier_cases hx with ⟨rfl, rfl⟩ | ⟨_, hx⟩
    · obtain rfl : g' = g := Option.some.inj hg
      refine ⟨Nat.le_of_eq hbase, fun _ => hprev.trans ?_⟩
      show none = (o.active c.hostId).bind _
      rw [hfree]
      rfl
    · exact h.base_of_same hx hst' hxD hg rfl (ownerTransport_setCarrier (e := c₁) hc rfl _)
  · rcases Ownership.carrier_cases hcx with ⟨rfl, rfl⟩ | ⟨_, hcx⟩
    · exact (h.directory host).2 d x c hd hx hc
    · exact (h.directory host).2 d x cx hd hx hcx

theorem offline {host : Nat} (h : Owned D o) (hs : o.active host = some s) (hD : s ∈ D) : Owned D (o.offline host) := by
  obtain ⟨c, hc, hhost, _⟩ := h.active host s hs
  have hset : (o.setCarrier s c).carrier = o.carrier := by
    unfold Ownership.setCarrier
    exact Function.update_eq_self_iff.mpr hc.symm
  have hactive : ∀ {k}, k ≠ host → (o.offline host).active k = o.active k := fun hk => by simp [Ownership.offline, hk]
  refine h.restatus (s := s) (e := c) hc hset.symm rfl rfl ⟨rfl, rfl, rfl⟩ id (.inr ⟨rfl, rfl, fun _ => .inr hD⟩)
    (fun k x hx => ?_) (fun x cx hx hst hxD => ?_) (fun k x hx => ?_) (fun x cx hx hst hxD => ?_)
    (fun x cx g hx hst hxD hg => ?_) (fun k => ?_) (fun _ hn => absurd hD hn) (fun hf => h.gone s c hc hf)
  · have hk : k ≠ host := by rintro rfl; simp [Ownership.offline] at hx
    rw [hactive hk] at hx
    refine .inr ⟨?_, hx⟩
    rintro rfl
    obtain ⟨cx, hcx, hhost', _⟩ := h.active k x hx
    obtain rfl := Option.some.inj (hc.symm.trans hcx)
    exact hk (hhost'.symm.trans hhost)
  · rw [hset] at hx
    have hx' := h.activeOf x cx hx hst hxD
    have hk : cx.hostId ≠ host := by
      intro heq
      rw [heq, hs] at hx'
      obtain rfl := Option.some.inj hx'
      exact hxD hD
    rw [hactive hk]
    exact hx'
  · by_cases hxs : x = s
    · subst hxs
      obtain ⟨cx, hcx, hhost', hrest⟩ := h.registering k x hx
      obtain rfl := Option.some.inj (hc.symm.trans hcx)
      exact .inl ⟨rfl, hhost'.symm, hrest⟩
    · exact .inr ⟨hxs, hx⟩
  · rw [hset] at hx
    exact h.registeringOf x cx hx hst hxD
  · rw [hset] at hx
    have hbase := h.base x cx g hx hst hxD hg
    by_cases hk : cx.hostId = host
    · -- the revision has grown past every base
      have hrev : (o.offline host).revision cx.hostId = o.revision host + 1 := by
        simp [Ownership.offline, Ownership.publish, Ownership.revision, hk]
      rw [hrev]
      rw [hk] at hbase
      exact ⟨Nat.le_succ_of_le hbase.1, fun heq => by omega⟩
    · refine h.base_of_same hx hst hxD hg ?_ ?_
      · simp [Ownership.offline, Ownership.publish, Ownership.revision, hk]
      · simp [Ownership.offline, Ownership.publish, Ownership.ownerTransport, hk]
  · by_cases hk : k = host
    · subst hk
      refine ⟨by simp [Ownership.offline, Ownership.publish], fun d x cx _ hx _ => ?_⟩
      simp [Ownership.offline] at hx
    · have hrec : (o.offline host).record k = o.record k := by simp [Ownership.offline, Ownership.publish, hk]
      rw [hrec, hactive hk, hset]
      exact h.directory k

theorem unregister {host : Nat} (h : Owned D o) (hs : ∀ x, o.registering host = some x → x ∈ D) :
    Owned D (o.unregister host) := by
  have hsub : ∀ {k x}, (o.unregister host).registering k = some x → k ≠ host ∧ o.registering k = some x := by
    intro k x hx
    by_cases hk : k = host
    · subst hk
      simp [Ownership.unregister] at hx
    · exact ⟨hk, by simpa [Ownership.unregister, hk] using hx⟩
  exact
    { transports := h.transports
      active := h.active
      activeOf := h.activeOf
      registering := fun k x hx => h.registering k x (hsub hx).2
      registeringOf := fun x cx hx hst hxD => by
        have hx' := h.registeringOf x cx hx hst hxD
        have hk : cx.hostId ≠ host := fun heq => hxD (hs x (heq ▸ hx'))
        simpa [Ownership.unregister, hk] using hx'
      base := h.base
      directory := h.directory
      routed := h.routed
      listed := h.listed
      once := h.once
      idle := h.idle
      gone := h.gone
      clientOf := h.clientOf
      routeOf := h.routeOf }

/-- **Routes and clients change**, and of the carriers the lists of their routes only. -/
theorem reroute {o' : Ownership} (h : Owned D o) (maps : o'.active = o.active ∧ o'.registering = o.registering)
    (record : o'.record = o.record) (hown : ∀ host, o'.ownerTransport host = o.ownerTransport host)
    (hback : ∀ x cx, o'.carrier x = some cx → ∃ ids, o.carrier x = some { cx with routeIds := ids })
    (hforth : ∀ x c₀, o.carrier x = some c₀ → ∃ ids, o'.carrier x = some { c₀ with routeIds := ids })
    (routed : ∀ id r, o'.route id = some r → ∃ s c, o'.carrier s = some c ∧ c.attached = true ∧
      c.transportId = r.carrierTransportId ∧ c.connectorId = some r.connectorId ∧ c.hostId = r.hostId ∧ id ∈ c.routeIds ∧
      (c.status = .active ∨ s ∈ D))
    (listed : ∀ s c id, o'.carrier s = some c → id ∈ c.routeIds →
      c.attached = true ∧ ∃ r, o'.route id = some r ∧ r.carrierTransportId = c.transportId)
    (once : ∀ s c, o'.carrier s = some c → c.routeIds.Nodup)
    (idle : ∀ s c, o'.carrier s = some c → c.status ≠ .active → s ∉ D → c.routeIds = [])
    (clientOf : ∀ id r, o'.route id = some r → o'.client r.connectionId = some id)
    (routeOf : ∀ k id, o'.client k = some id → ∃ r, o'.route id = some r ∧ r.connectionId = k) : Owned D o' := by
  refine
    { transports := fun s₁ c₁ s₂ c₂ h₁ h₂ => ?_
      active := fun host x hx => ?_
      activeOf := fun x cx hx => ?_
      registering := fun host x hx => ?_
      registeringOf := fun x cx hx => ?_
      base := fun x cx g hx => ?_
      directory := fun host => ?_
      routed := routed
      listed := listed
      once := once
      idle := idle
      gone := fun x cx hx => ?_
      clientOf := clientOf
      routeOf := routeOf }
  · obtain ⟨_, h₁⟩ := hback s₁ c₁ h₁
    obtain ⟨_, h₂⟩ := hback s₂ c₂ h₂
    exact (h.transports s₁ _ s₂ _ h₁ h₂ :)
  · obtain ⟨c₀, h₀, hrest⟩ := h.active host x (maps.1 ▸ hx)
    obtain ⟨_, hcx⟩ := hforth x c₀ h₀
    exact ⟨_, hcx, hrest⟩
  · obtain ⟨_, h₀⟩ := hback x cx hx
    rw [maps.1]
    exact (h.activeOf x _ h₀ :)
  · obtain ⟨c₀, h₀, hrest⟩ := h.registering host x (maps.2 ▸ hx)
    obtain ⟨_, hcx⟩ := hforth x c₀ h₀
    exact ⟨_, hcx, hrest⟩
  · obtain ⟨_, h₀⟩ := hback x cx hx
    rw [maps.2]
    exact (h.registeringOf x _ h₀ :)
  · obtain ⟨_, h₀⟩ := hback x cx hx
    unfold Ownership.revision
    rw [record, hown]
    exact (h.base x _ g h₀ :)
  · rw [record, maps.1]
    refine ⟨(h.directory host).1, fun d x cx hd hx hcx => ?_⟩
    obtain ⟨_, h₀⟩ := hback x cx hcx
    exact ((h.directory host).2 d x _ hd hx h₀ :)
  · obtain ⟨_, h₀⟩ := hback x cx hx
    exact (h.gone x _ h₀ :)

theorem addRoute {i : Nat} {r : RouteFace} (h : Owned D o) (hc : o.carrier s = some c) (ha : c.attached = true)
    (hst : c.status = .active) (hid : o.route i = none) (hclient : o.client r.connectionId = none)
    (ht : c.transportId = r.carrierTransportId) (hk : c.connectorId = some r.connectorId) (hh : c.hostId = r.hostId) :
    Owned D (o.addRoute s c i r) := by
  let c₁ : CarrierFace := { c with routeIds := c.routeIds ++ [i] }
  have hroute : ∀ {i' r'}, (o.addRoute s c i r).route i' = some r' → (i' = i ∧ r' = r) ∨ (i' ≠ i ∧ o.route i' = some r') := by
    intro i' r' hr'
    by_cases hi : i' = i
    · subst hi
      exact .inl ⟨rfl, by simpa [Ownership.addRoute] using hr'.symm⟩
    · exact .inr ⟨hi, by simpa [Ownership.addRoute, hi, Ownership.setCarrier] using hr'⟩
  have hold : ∀ {i' r'}, o.route i' = some r' → (o.addRoute s c i r).route i' = some r' := by
    intro i' r' hr'
    have hi : i' ≠ i := fun heq => by rw [heq, hid] at hr'; cases hr'
    simpa [Ownership.addRoute, hi, Ownership.setCarrier] using hr'
  have hforth : ∀ x c₀, o.carrier x = some c₀ → ∃ ids, (o.addRoute s c i r).carrier x = some { c₀ with routeIds := ids } ∧
      c₀.routeIds ⊆ ids := by
    intro x c₀ hx
    by_cases hxs : x = s
    · subst hxs
      obtain rfl := Option.some.inj (hc.symm.trans hx)
      exact ⟨_, Ownership.carrier_self (c := c₁), List.subset_append_left _ _⟩
    · exact ⟨c₀.routeIds, (Ownership.carrier_ne (c := c₁) hxs).trans hx, List.Subset.refl _⟩
  refine h.reroute ⟨rfl, rfl⟩ rfl (fun host => ownerTransport_setCarrier (e := c₁) hc rfl host)
    (Ownership.carrier_all (c := c₁) ⟨c.routeIds, hc⟩ fun x cx hx => ⟨cx.routeIds, hx⟩)
    (fun x c₀ hx => ⟨_, (hforth x c₀ hx).choose_spec.1⟩) (fun i' r' hr' => ?_) (fun x cx i' hx hid' => ?_)
    (fun x cx hx => ?_) (Ownership.carrier_all (c := c₁) (fun hne => absurd hst hne) h.idle) (fun i' r' hr' => ?_)
    (fun k i' hk' => ?_)
  · rcases hroute hr' with ⟨rfl, rfl⟩ | ⟨_, hr'⟩
    · exact ⟨s, c₁, Ownership.carrier_self, ha, ht, hk, hh, List.mem_append_right _ (List.mem_singleton_self _), .inl hst⟩
    · obtain ⟨x, c₀, h₀, hatt, htr, hconn, hhost, hmem, hor⟩ := h.routed i' r' hr'
      obtain ⟨_, hcx, hsub⟩ := hforth x c₀ h₀
      exact ⟨x, _, hcx, hatt, htr, hconn, hhost, hsub hmem, hor⟩
  · rcases Ownership.carrier_cases (c := c₁) hx with ⟨rfl, rfl⟩ | ⟨_, hx⟩
    · rcases List.mem_append.mp hid' with hid' | hid'
      · obtain ⟨hatt, r', hr', htr⟩ := h.listed x c i' hc hid'
        exact ⟨hatt, r', hold hr', htr⟩
      · obtain rfl := List.mem_singleton.mp hid'
        exact ⟨ha, r, by simp [Ownership.addRoute], ht.symm⟩
    · obtain ⟨hatt, r', hr', htr⟩ := h.listed x cx i' hx hid'
      exact ⟨hatt, r', hold hr', htr⟩
  · rcases Ownership.carrier_cases (c := c₁) hx with ⟨rfl, rfl⟩ | ⟨_, hx⟩
    · refine List.nodup_append.mpr ⟨h.once x c hc, List.nodup_singleton i, fun i hi j hj => ?_⟩
      obtain rfl := List.mem_singleton.mp hj
      rintro rfl
      obtain ⟨_, r', hr', _⟩ := h.listed x c i hc hi
      rw [hid] at hr'
      cases hr'
    · exact h.once x cx hx
  · rcases hroute hr' with ⟨rfl, rfl⟩ | ⟨hi, hr'⟩
    · simp [Ownership.addRoute]
    · have hcl := h.clientOf i' r' hr'
      have hne : r'.connectionId ≠ r.connectionId := fun heq => by rw [heq, hclient] at hcl; cases hcl
      simpa [Ownership.addRoute, hne, Ownership.setCarrier] using hcl
  · by_cases hkk : k = r.connectionId
    · subst hkk
      obtain rfl : i = i' := by simpa [Ownership.addRoute] using hk'
      exact ⟨r, by simp [Ownership.addRoute], rfl⟩
    · obtain ⟨r', hr', hcon⟩ := h.routeOf k i' (by simpa [Ownership.addRoute, hkk, Ownership.setCarrier] using hk')
      exact ⟨r', hold hr', hcon⟩

theorem dropRoute {id : Nat} {r : RouteFace} (h : Owned D o) (hr : o.route id = some r) : Owned D (o.dropRoute id r) := by
  have hroute : ∀ {id' r'}, (o.dropRoute id r).route id' = some r' ↔ id' ≠ id ∧ o.route id' = some r' := by
    intro id' r'
    by_cases hi : id' = id
    · subst hi
      simp [Ownership.dropRoute]
    · simp [Ownership.dropRoute, hi]
  have hfaces : ∀ {x cx}, (o.dropRoute id r).carrier x = some cx →
      ∃ c₀, o.carrier x = some c₀ ∧ (cx = c₀ ∨ (c₀.attached = true ∧ c₀.transportId = r.carrierTransportId ∧
        cx = { c₀ with routeIds := c₀.routeIds.erase id })) := by
    intro x cx hx
    obtain ⟨c₀, h₀, hcx⟩ := Option.map_eq_some_iff.mp hx
    refine ⟨c₀, h₀, ?_⟩
    split at hcx
    · next hif => exact .inr ⟨hif.1, hif.2, hcx.symm⟩
    · exact .inl hcx.symm
  have hforth : ∀ x c₀, o.carrier x = some c₀ → ∃ ids, (o.dropRoute id r).carrier x = some { c₀ with routeIds := ids } ∧
      ∀ i ∈ c₀.routeIds, i ≠ id → i ∈ ids := by
    intro x c₀ hx
    by_cases hif : c₀.attached ∧ c₀.transportId = r.carrierTransportId
    · refine ⟨c₀.routeIds.erase id, ?_, fun i hi hne => (List.mem_erase_of_ne hne).mpr hi⟩
      simp only [Ownership.dropRoute, hx, Option.map_some, if_pos hif]
    · refine ⟨c₀.routeIds, ?_, fun i hi _ => hi⟩
      simp only [Ownership.dropRoute, hx, Option.map_some, if_neg hif]
  have hown : ∀ host, (o.dropRoute id r).ownerTransport host = o.ownerTransport host := by
    intro host
    unfold Ownership.ownerTransport Ownership.dropRoute
    congr 1
    funext x
    rw [Option.map_map]
    congr 1
    funext c₀
    simp only [Function.comp]
    split <;> rfl
  refine h.reroute ⟨rfl, rfl⟩ rfl hown (fun x cx hx => ?_) (fun x c₀ hx => ⟨_, (hforth x c₀ hx).choose_spec.1⟩)
    (fun id' r' hr' => ?_) (fun x cx id' hx hid' => ?_) (fun x cx hx => ?_) (fun x cx hx hne hxD => ?_)
    (fun id' r' hr' => ?_) (fun k id' hk' => ?_)
  · obtain ⟨c₀, h₀, rfl | ⟨_, _, rfl⟩⟩ := hfaces hx <;> exact ⟨_, h₀⟩
  · obtain ⟨hi, hr'⟩ := hroute.mp hr'
    obtain ⟨x, c₀, h₀, hatt, htr, hconn, hhost, hmem, hor⟩ := h.routed id' r' hr'
    obtain ⟨_, hcx, hsub⟩ := hforth x c₀ h₀
    exact ⟨x, _, hcx, hatt, htr, hconn, hhost, hsub _ hmem hi, hor⟩
  · obtain ⟨c₀, h₀, hcase⟩ := hfaces hx
    have hold : id' ∈ c₀.routeIds := by
      rcases hcase with rfl | ⟨_, _, rfl⟩
      · exact hid'
      · exact List.mem_of_mem_erase hid'
    obtain ⟨hatt, r', hr', htr⟩ := h.listed x c₀ id' h₀ hold
    -- the dropped route was listed by its own carrier only, and there it has been erased
    have hi : id' ≠ id := by
      rintro rfl
      obtain rfl := Option.some.inj (hr.symm.trans hr')
      rcases hcase with rfl | ⟨_, _, rfl⟩
      · have hif : (o.dropRoute id' r).carrier x = some { cx with routeIds := cx.routeIds.erase id' } := by
          simp [Ownership.dropRoute, h₀, hatt, htr]
        have heq : cx.routeIds = cx.routeIds.erase id' := by
          have := Option.some.inj (hx.symm.trans hif)
          exact congrArg CarrierFace.routeIds this
        rw [heq] at hid'
        exact (h.once x cx h₀).not_mem_erase hid'
      · exact (h.once x c₀ h₀).not_mem_erase hid'
    refine ⟨?_, r', hroute.mpr ⟨hi, hr'⟩, ?_⟩
    · rcases hcase with rfl | ⟨_, _, rfl⟩ <;> exact hatt
    · rcases hcase with rfl | ⟨_, _, rfl⟩ <;> exact htr
  · obtain ⟨c₀, h₀, rfl | ⟨_, _, rfl⟩⟩ := hfaces hx
    · exact h.once x cx h₀
    · exact (h.once x c₀ h₀).erase id
  · obtain ⟨c₀, h₀, rfl | ⟨_, _, rfl⟩⟩ := hfaces hx
    · exact h.idle x cx h₀ hne hxD
    · show c₀.routeIds.erase id = []
      rw [h.idle x c₀ h₀ hne hxD, List.erase_nil]
  · obtain ⟨hi, hr'⟩ := hroute.mp hr'
    have hcl := h.clientOf id' r' hr'
    have hne : r'.connectionId ≠ r.connectionId := by
      intro heq
      rw [heq, h.clientOf id r hr] at hcl
      exact hi (Option.some.inj hcl).symm
    simpa [Ownership.dropRoute, hne] using hcl
  · have hkk : k ≠ r.connectionId := by
      rintro rfl
      simp [Ownership.dropRoute] at hk'
    obtain ⟨r', hr', hcon⟩ := h.routeOf k id' (by simpa [Ownership.dropRoute, hkk] using hk')
    refine ⟨r', hroute.mpr ⟨?_, hr'⟩, hcon⟩
    rintro rfl
    obtain rfl := Option.some.inj (hr.symm.trans hr')
    exact hkk hcon.symm

theorem revise {w : Nat → Option RecordFace} (h : Owned D o)
    (hsame : ∀ host, (w host).map (fun d => (d.online, d.connectorId)) =
      (o.record host).map fun d => (d.online, d.connectorId))
    (hgrow : ∀ host, o.revision host ≤ ((w host).map RecordFace.revision).getD 0) :
    Owned D { o with record := w } :=
  { transports := h.transports
    active := h.active
    activeOf := h.activeOf
    registering := h.registering
    registeringOf := h.registeringOf
    base := fun x cx g hx hst hxD hg => by
      have hb := h.base x cx g hx hst hxD hg
      have hle := hgrow cx.hostId
      refine ⟨Nat.le_trans hb.1 hle, fun heq => hb.2 ?_⟩
      have : g.baseDirectoryRevision = ((w cx.hostId).map RecordFace.revision).getD 0 := heq
      omega
    directory := fun host => by
      have hs := hsame host
      refine ⟨?_, fun d x cx hd hx hcx => ?_⟩
      · rw [← (h.directory host).1]
        cases h1 : o.record host <;> cases h2 : w host <;> simp_all
      · have hd' : w host = some d := hd
        rw [hd', Option.map_some] at hs
        obtain ⟨d₀, hd₀, heq⟩ := Option.map_eq_some_iff.mp hs.symm
        rw [← (h.directory host).2 d₀ x cx hd₀ hx hcx]
        exact (congrArg Prod.snd heq).symm
    routed := h.routed
    listed := h.listed
    once := h.once
    idle := h.idle
    gone := h.gone
    clientOf := h.clientOf
    routeOf := h.routeOf }

end Owned

end Relay
end TmuxWorktree

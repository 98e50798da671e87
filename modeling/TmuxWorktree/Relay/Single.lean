import TmuxWorktree.Relay.Vacant
import TmuxWorktree.Relay.DrainOps
/-!
# Single — one owner for each host, after every run

`SingleOwner` says of the four maps what the ownership machine says in its own terms, and adds that a carrier out of use
holds nothing.  One call breaks the last part: when the authority of an auth control fails after the carrier has gone, the
error is queued on the carrier object all the same.  The path of an answer that does arrive checks the carrier first.
-/
namespace TmuxWorktree
namespace Relay

/-- **At most one owner and one candidate for each host, the directory in agreement, and every route on an owner.** -/
structure SingleOwner (b : Broker) : Prop where
  active : ∀ c ∈ b.carriers, ∀ c' ∈ b.carriers, c.status = .active → c'.status = .active →
    c.authContext.hostId = c'.authContext.hostId → c = c'
  registering : ∀ c ∈ b.carriers, ∀ c' ∈ b.carriers, c.status = .registering → c'.status = .registering →
    c.authContext.hostId = c'.authContext.hostId → c = c'
  online : ∀ host, (∃ d, b.recordOf host = some d ∧ d.online = true) ↔
    ∃ c ∈ b.carriers, c.attached = true ∧ c.status = .active ∧ c.authContext.hostId = host
  named : ∀ c ∈ b.carriers, ∀ d, c.status = .active → b.recordOf c.authContext.hostId = some d →
    c.connectorId.isSome = true ∧ d.connectorId = c.connectorId
  owner : ∀ c ∈ b.carriers, c.status = .active → b.activeAt c.authContext.hostId = some c
  routed : ∀ r ∈ b.routes, ∃ c, b.carrierAt r.carrierTransportId = some c ∧ c.status = .active ∧
    b.activeAt r.authContext.hostId = some c ∧ c.connectorId = some r.connectorId
  retired : ∀ c ∈ b.carriers, c.status.Retired → c.Vacant

/-- Carriers that are not owners hold nothing, but for those being torn down. -/
def Idle (D : List Nat) (b : Broker) : Prop :=
  ∀ s c, b.carrierOf s = some c → c.status ≠ .active → s ∉ D → c.Vacant

section
variable {C : Config} {P : Permits} {D D' : List Nat} {b b' : Broker}

theorem Move.idle (m : Move C P D b D' b') (h : Sound D b) (hl : ¬ P.late) (hi : Idle D b) : Idle D' b' := by
  intro s c' hc' hst hD'
  rcases (m.moved h).origin s c' hc' with ⟨_, hv⟩ | ⟨c, hc, hactive⟩
  · exact hv
  by_cases ha : c.status = .active
  · exact absurd ((hactive ha).resolve_right hD') hst
  -- The carrier was not active before either; only `unmark` takes a carrier off the list of teardowns.
  have hv : c.Vacant := by
    by_cases hD : s ∈ D
    · cases m with
      | @unmark _ _ x c₀ hc₀ _ hroutes empty =>
        have hx : s = x := (List.mem_cons.mp hD).resolve_right hD'
        subst hx
        obtain rfl := Option.some.inj (hc₀.symm.trans hc)
        exact ⟨hroutes, empty⟩
      | mark => exact absurd (List.mem_cons_of_mem _ hD) hD'
      | _ => exact absurd hD hD'
    · exact hi s c hc ha hD
  obtain ⟨c₁, hc₁, hv₁, _⟩ := m.vacant h hl hc ha hv
  obtain rfl := Option.some.inj (hc₁.symm.trans hc')
  exact hv₁

theorem Path.idle (p : Path C P D b D' b') (h : Sound D b) (hl : ¬ P.late) (hi : Idle D b) : Idle D' b' := by
  induction p with
  | refl => exact hi
  | step first _ ih => exact ih (first.sound h) (first.idle h hl hi)

theorem Path.advances (p : Path C P D b D' b') (h : Sound D b) : Advances b b' := by
  induction p with
  | refl => exact .of_directory rfl
  | step first _ ih => exact (first.moved h).advances.trans (ih (first.sound h))

theorem Sound.activeAt (h : Sound [] b) {c : Carrier} (hc : c ∈ b.carriers) (ha : c.status = .active) :
    b.activeAt c.authContext.hostId = some c := by
  have hof := h.carrierOf_mem hc
  have howner : b.active.lookup c.authContext.hostId = some c.serial :=
    h.owned.activeOf c.serial c.face (ownership_carrier hof) ha List.not_mem_nil
  unfold Broker.activeAt
  rw [howner, Option.bind_some, hof]

theorem Sound.owner_spec {D : List Nat} (h : Sound D b) {host s : Nat} (hs : b.active.lookup host = some s) :
    ∃ c, b.carrierOf s = some c ∧ c.authContext.hostId = host ∧ c.attached = true ∧ c.status = .active ∧
      c.connectorId.isSome = true := by
  obtain ⟨f, hf, hhost, hatt, hact, hconn, _⟩ := h.owned.active host s hs
  obtain ⟨c, hc, rfl⟩ := Option.map_eq_some_iff.mp hf
  exact ⟨c, hc, hhost, hatt, hact, hconn⟩

/-- **The invariants of the machine, read back on the broker's maps.** -/
theorem Sound.singleOwner (h : Sound [] b) (hi : Idle [] b) : SingleOwner b where
  active c hc c' hc' ha ha' hhost := by
    have heq := h.activeAt hc ha
    rw [hhost, h.activeAt hc' ha'] at heq
    exact (Option.some.inj heq).symm
  registering c hc c' hc' ha ha' hhost := by
    have h₁ := h.owned.registeringOf c.serial c.face (ownership_carrier (h.carrierOf_mem hc)) ha List.not_mem_nil
    have h₂ := h.owned.registeringOf c'.serial c'.face (ownership_carrier (h.carrierOf_mem hc')) ha' List.not_mem_nil
    rw [show c.face.hostId = c'.face.hostId from hhost, h₂] at h₁
    have hof := h.carrierOf_mem hc
    rw [← Option.some.inj h₁, h.carrierOf_mem hc'] at hof
    exact (Option.some.inj hof).symm
  online host := by
    have hdir := (h.owned.directory host).1
    constructor
    · rintro ⟨d, hd, hon⟩
      have hrecord : (b.ownership.record host).any RecordFace.online = true := by
        show ((b.recordOf host).map _).any _ = true
        rw [hd]
        exact hon
      obtain ⟨s, hs⟩ := Option.isSome_iff_exists.mp (hdir.mp hrecord)
      obtain ⟨c, hc, hhost, hatt, hact, _⟩ := h.owner_spec hs
      exact ⟨c, Keyed.mem_of_find hc, hatt, hact, hhost⟩
    · rintro ⟨c, hc, _, hact, rfl⟩
      have howner := h.owned.activeOf c.serial c.face (ownership_carrier (h.carrierOf_mem hc)) hact List.not_mem_nil
      have hrecord : ((b.recordOf c.authContext.hostId).map DirectoryRecord.face).any RecordFace.online = true :=
        hdir.mpr (Option.isSome_iff_exists.mpr ⟨_, howner⟩)
      cases hd : b.recordOf c.authContext.hostId with
      | none =>
        rw [hd] at hrecord
        cases hrecord
      | some d =>
        rw [hd] at hrecord
        exact ⟨d, rfl, hrecord⟩
  named c hc d ha hd := by
    have hof := ownership_carrier (h.carrierOf_mem hc)
    have howner := h.owned.activeOf c.serial c.face hof ha List.not_mem_nil
    have hrecord : b.ownership.record c.authContext.hostId = some d.face := by
      show (b.recordOf _).map _ = _
      rw [hd]
      rfl
    obtain ⟨c₁, hc₁, _, _, _, hconn⟩ := h.owner_spec howner
    obtain rfl := Option.some.inj (hc₁.symm.trans (h.carrierOf_mem hc))
    exact ⟨hconn, (h.owned.directory _).2 d.face c₁.serial c₁.face hrecord howner hof⟩
  owner c hc ha := h.activeAt hc ha
  routed r hr := by
    have hroute : b.ownership.route r.routeId = some r.face := by
      show (b.routeOf r.routeId).map _ = _
      rw [show b.routeOf r.routeId = some r from Keyed.find_of_mem h.routeIds hr]
      rfl
    obtain ⟨s, f, hf, hatt, ht, hk, hhost, _, hst⟩ := h.owned.routed _ _ hroute
    obtain ⟨c, hc, rfl⟩ := Option.map_eq_some_iff.mp hf
    have hact : c.status = .active := hst.resolve_right List.not_mem_nil
    have hmem := Keyed.mem_of_find hc
    refine ⟨c, h.carrierAt_iff.mpr ⟨h.carrierOf_mem hmem, hatt, ht⟩, hact, ?_, hk⟩
    rw [← show c.authContext.hostId = r.authContext.hostId from hhost]
    exact h.activeAt hmem hact
  retired c hc hst := hi c.serial c (h.carrierOf_mem hc) hst.ne_active List.not_mem_nil

end

/-- **No operation is the failure of an auth control whose carrier has gone.** -/
def Punctual (C : Config) : List Op → Broker → Prop
  | [], _ => True
  | op :: ops, b => ¬ (op.permits b).late ∧ Punctual C ops (op.run C b)

section
variable {C : Config} {b : Broker}

theorem Punctual.take {ops : List Op} (h : Punctual C ops b) (n : Nat) : Punctual C (ops.take n) b := by
  induction ops generalizing n b with
  | nil =>
    rw [List.take_nil]
    exact h
  | cons op ops ih =>
    cases n with
    | zero => exact trivial
    | succ n => exact ⟨h.1, ih h.2 n⟩

theorem run_idle {ops : List Op} (hp : Punctual C ops b) (h : Sound [] b) (hi : Idle [] b) : Idle [] (run C ops b) := by
  induction ops generalizing b with
  | nil => exact hi
  | cons op ops ih => exact ih hp.2 ((op.walk h).sound h) ((op.walk h).idle h hp.1 hi)

theorem run_append (C : Config) (ops ops' : List Op) (b : Broker) : run C (ops ++ ops') b = run C ops' (run C ops b) :=
  List.foldl_append ..

theorem run_take_succ (C : Config) {ops : List Op} {n : Nat} (hn : n < ops.length) (b : Broker) :
    run C (ops.take (n + 1)) b = (ops.get ⟨n, hn⟩).run C (run C (ops.take n) b) := by
  rw [List.take_succ_eq_append_getElem hn, run_append]
  rfl

theorem Idle.start (ready : List Extension) (replies : Nat → Reply) : Idle [] (Broker.start ready replies) :=
  fun _ _ h => nomatch h

end

/-- **One owner for each host.**  In a run in which no auth control fails late, ownership is in order in every state, and
every operation that changes a directory record raises its revision. -/
theorem single_owner_of_punctual (C : Config) (ready : List Extension) (replies : Nat → Reply) (ops : List Op)
    (punctual : Punctual C ops (Broker.start ready replies)) :
    (∀ n, SingleOwner (run C (ops.take n) (Broker.start ready replies))) ∧
      ∀ n, n < ops.length → Advances (run C (ops.take n) (Broker.start ready replies))
        (run C (ops.take (n + 1)) (Broker.start ready replies)) := by
  have hs := Sound.start ready replies
  refine ⟨fun n => ?_, fun n hn => ?_⟩
  · exact (run_sound C _ hs).singleOwner (run_idle (punctual.take n) hs (Idle.start ready replies))
  · have h := run_sound C (ops.take n) hs
    rw [run_take_succ C hn]
    exact ((ops.get ⟨n, hn⟩).walk h).advances h

/-! ## The late failure -/

/-- A codec by the sizes of its frames: a `route.data` carries its bytes in base64. -/
def sampleCodec : Codec where
  decodePublic data :=
    if data.content = 0 then some { lane := none, kind := .response, type := .hostWelcome, requestId := some 0 }
    else if data.content < 100 then some { lane := none, kind := .request, type := .terminalInput }
    else some { lane := none, kind := .event, type := .terminalOutput }
  wireBytes frame :=
    match frame with
    | .routeData _ _ _ data => (data.byteLength + 2) / 3 * 4 + 300
    | _ => 400
  encode _ := ⟨500, 700⟩

def sampleConfig : Config := ⟨sampleCodec, true, true, true, true⟩

def sampleHello : HostHello := ⟨1, 7, 100, 101, true, true, requiredCapabilities, 1048576, 65536⟩

def sampleHost : Authorization := ⟨.host, 7, 1, 2, none, 3, 4, 1000000, 1, 9⟩

def sampleStart : Broker := Broker.start [] fun _ => ⟨5, false⟩

def sampleRegister : List Op :=
  [.attach 1 sampleHost 11, .receive 1 (some (.hello sampleHello)), .controlDelivered 1 2]

theorem single_owner_of_punctual_sample : Punctual sampleConfig sampleRegister sampleStart ∧
    SingleOwner (run sampleConfig (sampleRegister.take 3) sampleStart) := by
  have hp : Punctual sampleConfig sampleRegister sampleStart := ⟨id, id, id, trivial⟩
  exact ⟨hp, (single_owner_of_punctual sampleConfig [] (fun _ => ⟨5, false⟩) sampleRegister hp).1 3⟩

/-- The host asks for an enrollment and hangs up before the authority fails. -/
def sampleLate : List Op :=
  sampleRegister ++ [.receive 1 (some (.authControl 1 6 false)), .disconnect 1, .authDecision 3 .failed]

/-- **The error is queued on the closed carrier.** -/
theorem single_owner_late_failure : ¬ SingleOwner (run sampleConfig sampleLate sampleStart) := by
  intro h
  have hheld : ∃ c ∈ (run sampleConfig sampleLate sampleStart).carriers, c.status = .closed ∧ c.queuedBytes ≠ 0 := by
    decide +kernel
  obtain ⟨c, hc, hst, hq⟩ := hheld
  exact hq (h.retired c hc (.inr hst)).empty.queuedBytes

end Relay
end TmuxWorktree

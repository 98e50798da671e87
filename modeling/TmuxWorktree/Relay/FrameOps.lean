import TmuxWorktree.Relay.Ops
/-!
# FrameOps — frames of clients and hosts, walked move by move
-/
namespace TmuxWorktree
namespace Relay

section
variable {C : Config} {P : Permits} {D : List Nat} {b b' : Broker} {c : Carrier} {r : Route}

/-! ## Through a quiet stretch -/

theorem Quiet.toRoute (hq : Quiet b b') {id : Nat} (hr : b.routeOf id = some r) :
    ∃ r', b'.routeOf id = some r' ∧ r'.bare = r.bare := find_of_map_bare hq.routes.symm (fun _ => rfl) hr

theorem map_bare_update {ν : Type} {key : ν → Nat} {f : ν → ν} (bare : ν → ν) (hkey : ∀ v, key (bare v) = key v)
    (hf : ∀ v, bare (f v) = f (bare v)) (k : Nat) (l : List ν) :
    (Keyed.update key k f l).map bare = Keyed.update key k f (l.map bare) := by
  unfold Keyed.update
  rw [List.map_map, List.map_map]
  refine List.map_congr_left fun v _ => ?_
  simp only [Function.comp, hkey]
  split
  · exact hf v
  · rfl

theorem Quiet.noteRequest (hq : Quiet b b') (id : Nat) (f : PublicFrame) :
    Quiet (b.noteRequest id f) (b'.noteRequest id f) := by
  unfold Broker.noteRequest
  split
  · refine ⟨hq.carriers, ?_, hq.clients, hq.active, hq.registering, hq.directory, hq.trace, hq.fresh⟩
    show (Keyed.update _ _ _ _).map Route.bare = (Keyed.update _ _ _ _).map Route.bare
    rw [map_bare_update Route.bare (fun _ => rfl) (by exact fun _ => rfl), hq.routes,
      map_bare_update Route.bare (fun _ => rfl) (by exact fun _ => rfl)]
  · exact hq

theorem Quiet.emit (hq : Quiet b b') (e : Event) : Quiet (b.emit e) (b'.emit e) :=
  ⟨hq.carriers, hq.routes, hq.clients, hq.active, hq.registering, hq.directory, congrArg (e :: ·) hq.trace, hq.fresh⟩

/-! ## Pressure -/

theorem walk_markClientPressure (hon : On b c r) (hopen : r.status = .opened) :
    Path C P D b D (b.markClientPressure r.routeId).2 := by
  unfold Broker.markClientPressure
  rw [hon.route]
  dsimp only
  by_cases hsince : r.clientToHostPressureSinceMs.isNone
  · rw [if_pos hsince]
    have hidle : r.clientToHostPressureSinceMs = none := Option.isNone_iff_eq_none.mp hsince
    have p₁ : Path C P D b D (b.read.setRoute r.routeId (Route.clocked b.reply.time .clientToHost)) :=
      .step (.quiet (.read b)) (.one (.clock .clientToHost _ ((Same.read b).on hon) hopen hidle))
    have hon₁ : On (b.read.setRoute r.routeId (Route.clocked b.reply.time .clientToHost)) c
        (r.clocked b.reply.time .clientToHost) :=
      ⟨hon.carrier, routeOf_setRoute_at hon.route fun _ => rfl, hon.attached, hon.active, hon.transport, hon.connector⟩
    split
    · exact p₁
    · next hp => exact p₁.trans (.one (.pause (r := r.clocked b.reply.time .clientToHost) .clientToHost hon₁ hopen
        (by simpa [Route.pausedIn, Route.clocked] using hp)))
  · rw [if_neg hsince]
    split
    · exact .refl
    · next hp => exact .one (.pause .clientToHost hon hopen (by simpa [Route.pausedIn] using hp))

theorem walk_markHostPressure (hon : On b c r) (hopen : r.status = .opened) :
    Path C P D b D (b.markHostPressure r.routeId).2 := by
  unfold Broker.markHostPressure
  rw [hon.route]
  dsimp only
  by_cases hsince : r.hostToClientPressureSinceMs.isNone
  · rw [if_pos hsince]
    have hidle : r.hostToClientPressureSinceMs = none := Option.isNone_iff_eq_none.mp hsince
    have p₁ : Path C P D b D (b.read.setRoute r.routeId (Route.clocked b.reply.time .hostToClient)) :=
      .step (.quiet (.read b)) (.one (.clock .hostToClient _ ((Same.read b).on hon) hopen hidle))
    have hon₁ : On (b.read.setRoute r.routeId (Route.clocked b.reply.time .hostToClient)) c
        (r.clocked b.reply.time .hostToClient) :=
      ⟨hon.carrier, routeOf_setRoute_at hon.route fun _ => rfl, hon.attached, hon.active, hon.transport, hon.connector⟩
    split
    · exact p₁
    · next hp => exact p₁.trans (.one (.pause (r := r.clocked b.reply.time .hostToClient) .hostToClient hon₁ hopen
        (by simpa [Route.pausedIn, Route.clocked] using hp)))
  · rw [if_neg hsince]
    split
    · exact .refl
    · next hp => exact .one (.pause .hostToClient hon hopen (by simpa [Route.pausedIn] using hp))

theorem walk_markClient_found (h : Sound [] b) {id : Nat} (hr : b.routeOf id = some r) (hopen : r.status = .opened) :
    Path C P [] b [] (b.markClientPressure r.routeId).2 := by
  obtain ⟨c, hon, _⟩ := h.on (by rw [id_of_routeOf hr]; exact hr)
  exact walk_markClientPressure hon hopen

theorem walk_markHost_found (h : Sound [] b) {id : Nat} (hr : b.routeOf id = some r) (hopen : r.status = .opened) :
    Path C P [] b [] (b.markHostPressure r.routeId).2 := by
  obtain ⟨c, hon, _⟩ := h.on (by rw [id_of_routeOf hr]; exact hr)
  exact walk_markHostPressure hon hopen

/-! ## Frames for a client -/

theorem pushFrame_congr {r r' : Route} (hid : r'.routeId = r.routeId) (hconn : r'.connectionId = r.connectionId) (s : Nat)
    (bytes : Bytes) (charged : Bool) : b.pushFrame s r' bytes charged = b.pushFrame s r bytes charged := by
  unfold Broker.pushFrame
  rw [hid, hconn]

theorem quiet_pushClient (C : Config) (s : Nat) (r : Route) (bytes : Bytes) (charged : Bool) (b : Broker) :
    Quiet (b.pushFrame s r bytes charged) (b.pushClient C s r bytes charged) := by
  unfold Broker.pushClient
  dsimp only
  split
  · exact .signalClient C r.connectionId _
  · exact .refl _

theorem room_of_not_full {bytes : Bytes} (h : ¬ Broker.hostToClientFull c r bytes = true) :
    r.ReceiveRoom bytes ∧ c.DataRoom bytes.byteLength := by
  unfold Broker.hostToClientFull at h
  simp only [Bool.or_eq_true, decide_eq_true_eq, not_or, not_lt] at h
  exact ⟨⟨h.1.1, h.1.2⟩, h.2⟩

theorem walk_make (hon : On b c r) (hopen : r.status = .opened) {r₀ : Route} (hid : r₀.routeId = r.routeId)
    (hconn : r₀.connectionId = r.connectionId) (made : BrokerMade) (charged : Bool)
    (fits : r.ReceiveRoom (C.codec.encode made)) (room : charged = true → c.DataRoom (C.codec.encode made).byteLength) :
    Path C P D b D ((b.pushClient C c.serial r₀ (C.codec.encode made) charged).emit (.made r₀.routeId made)) := by
  refine .step (.make made charged hon hopen fits room) ?_
  rw [← pushFrame_congr hid hconn, ← hid]
  exact .quiet ((quiet_pushClient C c.serial r₀ _ charged b).emit _)

theorem walk_reject (h : Sound [] b) (hr : b.routeOf r.routeId = some r) (reason : UnbindReason) (code : Nat) (text : String)
    (e : StructuredError) : Path C P [] b [] (b.rejectClient C r reason code text e).2 :=
  walk_beginRouteUnbind h hr reason

theorem walk_unavailable (h : Sound [] b) (hon : On b c r) (hopen : r.status = .opened) (f : PublicFrame) (e : Extension) :
    Path C P [] b [] (b.enqueueAgentExtensionUnavailable C c r f e).2 := by
  unfold Broker.enqueueAgentExtensionUnavailable
  dsimp only
  split
  · exact walk_beginRouteUnbind h hon.route .slowConsumer
  · next hfull =>
    obtain ⟨hfits, hroom⟩ := room_of_not_full hfull
    exact walk_make hon hopen rfl rfl _ true hfits fun _ => hroom

/-! ## Frames of a client -/

theorem walk_answerSnapshot (h : Sound [] b) (hon : On b c r) (hopen : r.status = .opened) (f : PublicFrame) :
    Path C P [] b [] (b.answerSnapshot C c r f).2 := by
  have p₁ : Path C P [] b [] b.read := .quiet (.read b)
  have h₁ : Sound [] b.read := (Same.read b).sound h
  unfold Broker.answerSnapshot
  dsimp only
  split
  · exact p₁
  · split
    · exact p₁.trans (walk_reject h₁ hon.route _ _ _ _)
    · next hfull =>
      obtain ⟨hfits, hroom⟩ := room_of_not_full hfull
      exact p₁.trans (walk_make ((Same.read b).on hon) hopen rfl rfl _ true hfits fun _ => hroom)

/-! ## What a client sends -/

def Says (b b' : Broker) (e : Event) : Prop := ∃ l, b'.trace = l ++ b.trace ∧ e ∈ l

theorem Says.of_trace {b₁ b₁' : Broker} {e : Event} (h : Says b b' e) (h₁ : b₁.trace = b.trace) (h₂ : b₁'.trace = b'.trace) :
    Says b₁ b₁' e := by
  obtain ⟨l, hl, he⟩ := h
  exact ⟨l, by rw [h₁, h₂, hl], he⟩

theorem markClientPressure_trace (id : Nat) (b : Broker) : ∃ l, (b.markClientPressure id).2.trace = l ++ b.trace := by
  unfold Broker.markClientPressure
  split
  · exact ⟨[], rfl⟩
  · dsimp only
    split <;> split <;> first | exact ⟨[], rfl⟩ | exact ⟨[_], rfl⟩

theorem enqueueCarrierData_trace (C : Config) (c : Carrier) (r : Route) (bytes : Bytes) (b : Broker)
    (h : (b.enqueueCarrierData C c r bytes).1 = true) :
    (b.enqueueCarrierData C c r bytes).2.trace = .forwarded r.routeId r.nextClientToHostSeq bytes :: b.trace := by
  unfold Broker.enqueueCarrierData at *
  dsimp only at *
  split
  · next hfull =>
    rw [if_pos hfull] at h
    cases h
  · dsimp only
    split
    · exact (Quiet.signalCarrier C c.serial true _).trace
    · rfl

theorem pressed_says (c : Carrier) (r : Route) {b b₁ b₂ : Broker} {e : Event} (htrace : b₁.trace = e :: b.trace)
    (h₂ : b₂.trace = b₁.trace) :
    Says b (match b₂.carrierOf c.serial, b₂.routeOf r.routeId with
      | some c, some r =>
        if Broker.clientToHostAtHighWater c r then
          let (actions, b) := b₂.markClientPressure r.routeId
          ((⟨true, actions, none⟩ : Result), b)
        else (⟨true, [], none⟩, b₂)
      | _, _ => (⟨true, [], none⟩, b₂)).2 e := by
  have hset : Says b b₂ e := ⟨[_], h₂.trans htrace, List.mem_singleton.mpr rfl⟩
  split
  · next r' _ _ =>
    split
    · obtain ⟨l, hl⟩ := markClientPressure_trace r'.routeId b₂
      exact ⟨l ++ [_], by dsimp only; rw [hl, h₂, htrace, List.append_assoc]; rfl,
        List.mem_append_right _ (List.mem_singleton.mpr rfl)⟩
    · exact hset
  · exact hset

theorem forwardAdmitted_tells (C : Config) (c : Carrier) (r : Route) (f : PublicFrame) (bytes : Bytes) (b : Broker)
    (h : (b.forwardAdmitted C c r f bytes).1.accepted = true) :
    Says b (b.forwardAdmitted C c r f bytes).2 (.forwarded r.routeId r.nextClientToHostSeq bytes) := by
  unfold Broker.forwardAdmitted at *
  obtain ⟨ok, b₁, heq⟩ : ∃ ok b₁, b.enqueueCarrierData C c r bytes = (ok, b₁) := ⟨_, _, rfl⟩
  rw [heq] at h ⊢
  cases ok with
  | false => cases h
  | true =>
    have htrace := enqueueCarrierData_trace C c r bytes b (by rw [heq])
    rw [heq] at htrace
    dsimp only at htrace ⊢
    refine pressed_says c r htrace ?_
    split <;> split <;> rfl

/-- What `forwardClientFrame` has checked of a request when it puts it on the route. -/
def Route.Admits (r : Route) (f : PublicFrame) : Prop :=
  f.kind = .request → f.requestId.any (· ∈ r.inFlightRequestIds) = false ∧
    r.inFlightRequestIds.length < maxInFlightRequestsPerRoute

theorem enqueueCarrierData_cases (C : Config) (c : Carrier) (r : Route) (bytes : Bytes) (b : Broker) :
    b.enqueueCarrierData C c r bytes = (false, b) ∨
      (r.SendRoom bytes ∧ c.DataRoom (Broker.dataEntry C r bytes).wireBytes ∧
        ∃ b', b.enqueueCarrierData C c r bytes = (true, b') ∧
          Quiet (b.pushEntry c.serial r (Broker.dataEntry C r bytes) bytes) b') := by
  unfold Broker.enqueueCarrierData
  dsimp only
  split
  · exact .inl rfl
  · next hroom =>
    simp only [Bool.or_eq_true, decide_eq_true_eq, not_or, not_lt] at hroom
    exact .inr ⟨hroom.1, hroom.2, _, rfl, .ite (.signalCarrier C c.serial true _) (.refl _)⟩

theorem walk_forwardAdmitted (h : Sound [] b) (hon : On b c r) (hopen : r.status = .opened) (f : PublicFrame) (bytes : Bytes)
    (hdec : C.codec.decodePublic bytes = some f) (hadm : r.Admits f)
    (data : (b.forwardAdmitted C c r f bytes).1.accepted = true →
      Says b (b.forwardAdmitted C c r f bytes).2 (.forwarded r.routeId r.nextClientToHostSeq bytes) → P.data) :
    Path C P [] b [] (b.forwardAdmitted C c r f bytes).2 := by
  have allowed : ∀ b₁, b.enqueueCarrierData C c r bytes = (true, b₁) → P.data := by
    intro b₁ heq
    have hacc : (b.forwardAdmitted C c r f bytes).1.accepted = true := by
      unfold Broker.forwardAdmitted
      rw [heq]
      dsimp only
      split
      · split <;> rfl
      · rfl
    exact data hacc (forwardAdmitted_tells C c r f bytes b hacc)
  clear data
  unfold Broker.forwardAdmitted
  rcases enqueueCarrierData_cases C c r bytes b with heq | ⟨hfits, hroom, b₁, heq, q₁⟩
  · rw [heq]
    exact walk_markClientPressure hon hopen
  · rw [heq]
    dsimp only
    have m : Move C P [] b [] ((b.pushEntry c.serial r (Broker.dataEntry C r bytes) bytes).noteRequest r.routeId f) :=
      .forward f bytes (allowed b₁ heq) hon hopen hdec hadm hfits hroom
    have q₂ : Quiet ((b.pushEntry c.serial r (Broker.dataEntry C r bytes) bytes).noteRequest r.routeId f)
        (b₁.noteRequest r.routeId f) := q₁.noteRequest _ f
    have hr₁ : ∃ r₁, ((b.pushEntry c.serial r (Broker.dataEntry C r bytes) bytes).noteRequest r.routeId f).routeOf r.routeId =
        some r₁ ∧ r₁.status = .opened := by
      have hpush : (b.pushEntry c.serial r (Broker.dataEntry C r bytes) bytes).routeOf r.routeId = _ :=
        routeOf_setRoute_at hon.route (by exact fun _ => rfl)
      unfold Broker.noteRequest
      split
      · exact ⟨_, routeOf_setRoute_at hpush (by exact fun _ => rfl), hopen⟩
      · exact ⟨_, hpush, hopen⟩
    change Quiet _ (if f.kind = .request then
      b₁.setRoute r.routeId fun r => { r with inFlightRequestIds := f.requestId.toList ++ r.inFlightRequestIds } else b₁) at q₂
    generalize (if f.kind = .request then
      b₁.setRoute r.routeId fun r => { r with inFlightRequestIds := f.requestId.toList ++ r.inFlightRequestIds } else b₁) = b₂
      at q₂ ⊢
    have q₃ : Quiet b₂ (if f.type = .clientHello then b₂.setRoute r.routeId (Broker.noteOffers f) else b₂) :=
      .ite (.setRoute _ fun _ => rfl) (.refl _)
    generalize (if f.type = .clientHello then b₂.setRoute r.routeId (Broker.noteOffers f) else b₂) = b₃ at q₃ ⊢
    have q := q₂.trans q₃
    obtain ⟨r₁, hr₁, hst₁⟩ := hr₁
    obtain ⟨r₃, hr₃, hb₃⟩ := q.toRoute hr₁
    have p₃ : Path C P [] b [] b₃ := .step m (.quiet q)
    split
    · next c' r' _ hr' =>
      obtain rfl := Option.some.inj (hr₃.symm.trans hr')
      split
      · exact p₃.trans (walk_markClient_found (p₃.sound h) hr'
          ((bare_field Route.bare Route.status (fun _ => rfl) hb₃).trans hst₁))
      · exact p₃
    · exact p₃

theorem walk_forwardDecoded (h : Sound [] b) (hon : On b c r) (hopen : r.status = .opened) (f : PublicFrame) (bytes : Bytes)
    (hdec : C.codec.decodePublic bytes = some f)
    (data : (b.forwardDecoded C c r f bytes).1.accepted = true →
      Says b (b.forwardDecoded C c r f bytes).2 (.forwarded r.routeId r.nextClientToHostSeq bytes) → P.data) :
    Path C P [] b [] (b.forwardDecoded C c r f bytes).2 := by
  revert data
  unfold Broker.forwardDecoded
  split
  · exact fun _ => walk_reject h hon.route _ _ _ _
  · split
    · exact fun _ => walk_answerSnapshot h hon hopen f
    · split
      · exact fun _ => .refl
      · next hfree =>
        split
        · exact fun _ => .refl
        · next hcount =>
          have hadm : r.Admits f := fun hk => by
            simp only [hk, decide_true, Bool.true_and, decide_eq_true_eq, not_le, Bool.not_eq_true] at hfree hcount
            exact ⟨hfree, hcount⟩
          split
          · split
            · split
              · exact fun _ => .refl
              · exact walk_forwardAdmitted h hon hopen f bytes hdec hadm
            · split
              · exact fun _ => walk_unavailable h hon hopen f _
              · exact fun _ => walk_reject h hon.route _ _ _ _
          · exact walk_forwardAdmitted h hon hopen f bytes hdec hadm

/-- **`forwardClientFrame`**; what it refuses or answers itself goes on no route. -/
theorem walk_forwardClientFrame (h : Sound [] b) (id : Nat) (bytes : Bytes)
    (data : (b.forwardClientFrame C id bytes).1.accepted = true → ∀ r ∈ b.routes,
      Says b (b.forwardClientFrame C id bytes).2 (.forwarded r.routeId r.nextClientToHostSeq bytes) → P.data) :
    Path C P [] b [] (b.forwardClientFrame C id bytes).2 := by
  revert data
  unfold Broker.forwardClientFrame
  split
  · exact fun _ => .refl
  · next client _ =>
    split
    · exact fun _ => .refl
    · next r hr =>
      split
      · exact fun _ => .refl
      · next hopen =>
        have hr' : b.routeOf r.routeId = some r := by rw [id_of_routeOf hr]; exact hr
        rcases isClientAuthorizationActive_spec (C := C) h client with ⟨b₁, heq, rfl⟩ | ⟨b₁, heq, p⟩
        swap
        · rw [heq]
          exact fun _ => p.ends
        rw [heq]
        dsimp only
        rw [if_neg (by simp)]
        have h₁ : Sound [] b.read := (Same.read b).sound h
        have p₁ : Path C P [] b [] b.read := .quiet (.read b)
        split
        · exact fun _ => p₁.trans (.one (.drop hr'))
        · next c hown =>
          have hon : On b.read c r := on_of_ownCarrier h₁ hr' (Option.filter_eq_some_iff.mp hown).1
          rcases isCarrierAuthorizationActive_spec (C := C) h₁ c with ⟨b₂, heq₂, rfl⟩ | ⟨b₂, heq₂, p₂⟩
          swap
          · rw [heq₂]
            exact fun _ => p₁.trans p₂.ends
          rw [heq₂]
          dsimp only
          rw [if_neg (by simp)]
          have h₂ : Sound [] b.read.read := (Same.read _).sound h₁
          have hon₂ : On b.read.read c r := (Same.read _).on hon
          have p₂ : Path C P [] b [] b.read.read := p₁.trans (.quiet (.read _))
          split
          · exact fun _ => p₂.trans (walk_reject h₂ hon₂.route _ _ _ _)
          · next hdec =>
            exact fun data => p₂.trans (walk_forwardDecoded h₂ hon₂ (by simpa using hopen) _ bytes hdec fun hacc hsaid =>
              data hacc r (Keyed.mem_of_find hr) (hsaid.of_trace rfl rfl))

/-! ## Frames of a host -/

theorem on_of_currentRoute (hc : b.carrierOf c.serial = some c) (hatt : c.attached = true) (hact : c.status = .active)
    {id fence : Nat} (hr : b.currentRouteForFrame c id fence = some r) : On b c r ∧ r.routeFence = fence ∧ r.routeId = id := by
  obtain ⟨hof, hp⟩ := Option.filter_eq_some_iff.mp hr
  simp only [decide_eq_true_eq] at hp
  have hid := id_of_routeOf hof
  exact ⟨⟨hc, by rw [hid]; exact hof, hatt, hact, hp.1.symm, hp.2.1⟩, hp.2.2, hid⟩

theorem walk_clientWarning (h : Sound [] b) (hon : On b c r) (hopen : r.status = .opened) (client : Client)
    (hclient : client.connectionId = r.connectionId) (jti exp : Nat) :
    Path C P [] b [] (b.enqueueClientAuthExpiringWarning C client r jti exp).2.2 := by
  unfold Broker.enqueueClientAuthExpiringWarning
  dsimp only
  split
  · exact walk_beginRouteUnbind h hon.route .slowConsumer
  · next hfull =>
    simp only [Bool.or_eq_true, decide_eq_true_eq, not_or, not_lt] at hfull
    have hat : b.carrierAt r.carrierTransportId = some c := h.carrierAt_iff.mpr ⟨hon.carrier, hon.attached, hon.transport⟩
    rw [hat]
    dsimp only [Option.map_some, Option.getD_some]
    exact (walk_make hon hopen rfl rfl _ false ⟨hfull.1.2, hfull.2⟩ (fun h => nomatch h)).trans
      (.quiet (.setClient _ fun _ => rfl))

theorem walk_flushClientWarning (h : Sound [] b) {k id : Nat} (hr : b.routeOf id = some r) (hopen : r.status = .opened)
    (hk : r.connectionId = k) : Path C P [] b [] (b.flushDeferredClientAuthExpiringWarning C k id).2 := by
  have hr' : b.routeOf r.routeId = some r := by rw [id_of_routeOf hr]; exact hr
  obtain ⟨c, hon, _⟩ := h.on hr'
  unfold Broker.flushDeferredClientAuthExpiringWarning
  split
  · next client r₁ hclient hr₁ =>
    obtain rfl := Option.some.inj (hr.symm.trans hr₁)
    split
    · exact .refl
    · next w _ =>
      dsimp only
      split
      · exact .refl
      · split
        · exact .quiet (.setClient _ fun _ => rfl)
        · split
          · exact .quiet ((Quiet.read b).trans (.setClient _ fun _ => rfl))
          · have p := walk_clientWarning (C := C) (P := P) ((Same.read b).sound h) ((Same.read b).on hon) hopen client
              ((id_of_clientAt hclient).trans hk.symm) w.jti w.expiresAtMs
            have p' := (Path.quiet (C := C) (P := P) (D := []) (Quiet.read b)).trans p
            split
            · exact p'
            · exact p'.trans (.quiet (.setClient _ fun _ => rfl))
  · exact .refl

theorem walk_welcome (h : Sound [] b) (hon : On b c r) (hopening : r.status = .opening)
    (hpending : r.firstApplicationFrame = .pending) (hnone : r.hostToClientFrames = 0 ∧ r.hostToClientBufferedBytes = 0)
    (hello : HostHello) (limit : Nat) : Path C P [] b [] (b.welcome C c r hello limit).2 := by
  unfold Broker.welcome
  dsimp only
  split
  · exact walk_protocolViolation h hon.carrier _
  · next hfull =>
    simp only [Bool.or_eq_true, decide_eq_true_eq, not_or, not_lt] at hfull
    have m : Move C P [] b [] (b.setRoute r.routeId fun r =>
        { r with maxFrameBytes := limit, status := .opened, firstApplicationFrame := .welcome }) :=
      .welcome hon hopening hpending limit
    have h₁ := m.sound h
    let r₁ : Route := { r with maxFrameBytes := limit, status := .opened, firstApplicationFrame := .welcome }
    have hr₁ : (b.setRoute r.routeId fun r =>
        { r with maxFrameBytes := limit, status := .opened, firstApplicationFrame := .welcome }).routeOf r.routeId = some r₁ :=
      routeOf_setRoute_at hon.route (by exact fun _ => rfl)
    have hon₁ : On (b.setRoute r.routeId fun r =>
        { r with maxFrameBytes := limit, status := .opened, firstApplicationFrame := .welcome }) c r₁ :=
      ⟨hon.carrier, hr₁, hon.attached, hon.active, hon.transport, hon.connector⟩
    refine .step m ?_
    generalize (b.setRoute r.routeId fun r =>
      { r with maxFrameBytes := limit, status := .opened, firstApplicationFrame := .welcome }) = b₁ at h₁ hr₁ hon₁ ⊢
    have p₂ := walk_make (C := C) (P := P) (D := []) hon₁ rfl (show r.routeId = r₁.routeId from rfl)
      (show r.connectionId = r₁.connectionId from rfl)
      (BrokerMade.relayWelcome r.connectionId r.authContext.principalId (b.advertisedCapabilities C hello)) false
      ⟨by rw [show r₁.hostToClientFrames = 0 from hnone.1]; decide,
        by rw [show r₁.hostToClientBufferedBytes = 0 from hnone.2]; have := hfull.2; omega⟩ (fun h => nomatch h)
    have h₂ := p₂.sound h₁
    refine p₂.trans ?_
    -- the route after the welcome has been queued
    have hr₂ : ∃ r₂, ((b₁.pushClient C c.serial r (C.codec.encode (.relayWelcome r.connectionId r.authContext.principalId
        (b.advertisedCapabilities C hello))) false).emit (.made r.routeId (.relayWelcome r.connectionId
          r.authContext.principalId (b.advertisedCapabilities C hello)))).routeOf r.routeId = some r₂ ∧
        r₂.status = .opened ∧ r₂.connectionId = r.connectionId := by
      have hpush : (b₁.pushFrame c.serial r (C.codec.encode (.relayWelcome r.connectionId r.authContext.principalId
          (b.advertisedCapabilities C hello))) false).routeOf r.routeId = _ :=
        routeOf_setRoute_at hr₁ (by exact fun _ => rfl)
      obtain ⟨r₂, hr₂, hb₂⟩ := ((quiet_pushClient C c.serial r _ false b₁).emit (.made r.routeId _)).toRoute hpush
      have hst₂ := bare_field Route.bare Route.status (fun _ => rfl) hb₂
      have hconn₂ := bare_field Route.bare Route.connectionId (fun _ => rfl) hb₂
      exact ⟨r₂, hr₂, hst₂, hconn₂⟩
    obtain ⟨r₂, hr₂, hst₂, hconn₂⟩ := hr₂
    exact walk_flushClientWarning h₂ hr₂ hst₂ hconn₂

theorem walk_routeOpenedChecked (h : Sound [] b) (hc : b.carrierOf c.serial = some c) (hatt : c.attached = true)
    (hact : c.status = .active) {id fence : Nat} (requestId limit : Nat) :
    Path C P [] b [] (b.routeOpenedChecked C c (b.currentRouteForFrame c id fence) requestId limit).2 := by
  have bad : ∀ reason, Path C P [] b [] (b.protocolViolation C c reason).2 := walk_protocolViolation h hc
  unfold Broker.routeOpenedChecked
  split
  · exact bad _
  · next r hr =>
    have hon := (on_of_currentRoute hc hatt hact hr).1
    dsimp only
    split
    · split
      · exact bad _
      · exact .refl
    · split
      · exact bad _
      · next hstale =>
        simp only [Bool.or_eq_true, not_or, decide_eq_true_eq, ne_eq, not_not] at hstale
        split
        · exact bad _
        · split
          · split
            · exact bad _
            · next hconflict =>
              simp only [Bool.or_eq_true, not_or, decide_eq_true_eq, ne_eq, not_not] at hconflict
              split
              · exact bad _
              · exact walk_welcome h hon hstale.1.1 hstale.1.2 ⟨hconflict.1.2, hconflict.2⟩ _ limit
          · exact bad _

theorem walk_routeOpened (h : Sound [] b) (hc : b.carrierOf c.serial = some c) (hatt : c.attached = true)
    (hact : c.status = .active) (id fence requestId limit : Nat) :
    Path C P [] b [] (b.routeOpened C c id fence requestId limit).2 := by
  unfold Broker.routeOpened
  dsimp only
  split
  · next client _ =>
    rcases isClientAuthorizationActive_spec (C := C) h client with ⟨b₁, heq, rfl⟩ | ⟨b₁, heq, p⟩
    · rw [heq]
      dsimp only
      rw [if_neg (by simp)]
      exact (Path.quiet (.read b)).trans (walk_routeOpenedChecked ((Same.read b).sound h) hc hatt hact requestId limit)
    · rw [heq]
      exact p.ends
  · exact walk_routeOpenedChecked h hc hatt hact requestId limit

theorem walk_routeRejected (h : Sound [] b) (hc : b.carrierOf c.serial = some c) (hatt : c.attached = true)
    (hact : c.status = .active) (id fence requestId : Nat) (e : StructuredError) :
    Path C P [] b [] (b.routeRejected C c id fence requestId e).2 := by
  have bad : ∀ reason, Path C P [] b [] (b.protocolViolation C c reason).2 := walk_protocolViolation h hc
  unfold Broker.routeRejected
  dsimp only
  split
  · exact bad _
  · split
    · exact bad _
    · next r hr =>
      have hon := (on_of_currentRoute hc hatt hact hr).1
      split
      · exact .one (.drop hon.route)
      · split
        · exact bad _
        · exact .one (.drop hon.route)

theorem walk_routeUnbound (h : Sound [] b) (hc : b.carrierOf c.serial = some c) (hatt : c.attached = true)
    (hact : c.status = .active) (id fence last lastHost : Nat) :
    Path C P [] b [] (b.routeUnbound C c id fence last lastHost).2 := by
  have bad : ∀ reason, Path C P [] b [] (b.protocolViolation C c reason).2 := walk_protocolViolation h hc
  unfold Broker.routeUnbound
  split
  · exact bad _
  · next r hr =>
    split
    · exact bad _
    · split
      · exact bad _
      · exact .one (.drop (on_of_currentRoute hc hatt hact hr).1.route)

theorem walk_routeClosedByHost (h : Sound [] b) (hc : b.carrierOf c.serial = some c) (hatt : c.attached = true)
    (hact : c.status = .active) (id fence code : Nat) (reason : String) :
    Path C P [] b [] (b.routeClosedByHost C c id fence code reason).2 := by
  have bad : ∀ reason, Path C P [] b [] (b.protocolViolation C c reason).2 := walk_protocolViolation h hc
  unfold Broker.routeClosedByHost
  split
  · exact bad _
  · next r hr =>
    split
    · exact bad _
    · exact walk_beginRouteUnbind h (on_of_currentRoute hc hatt hact hr).1.route _

/-! ## Data of a host -/

theorem quiet_selectExtensions (C : Config) (r : Route) (f : PublicFrame) (bytes : Bytes) (b : Broker) :
    Quiet b (b.selectExtensions C r f bytes).2 ∧
      ((b.selectExtensions C r f bytes).1 = bytes ∨ (f.type = .hostWelcome ∧
        ∃ stripped, (b.selectExtensions C r f bytes).1 = C.codec.encode (.stripped bytes stripped))) ∧
      (f.type ≠ .hostWelcome → (b.selectExtensions C r f bytes).2 = b) ∧
      (b.selectExtensions C r f bytes).2.carriers = b.carriers := by
  unfold Broker.selectExtensions
  split
  · exact ⟨.refl b, .inl rfl, fun _ => rfl, rfl⟩
  · next hw =>
    refine ⟨.setRoute _ fun _ => rfl, ?_, fun hne => absurd hne hw, rfl⟩
    dsimp only
    split
    · exact .inl rfl
    · exact .inr ⟨by simpa using hw, _, rfl⟩

theorem walk_admitHostFrame (h : Sound [] b) {r₀ : Route} (hon : On b c r) (hopen : r.status = .opened)
    (hid : r₀.routeId = r.routeId) (hconn : r₀.connectionId = r.connectionId)
    (hframes : r₀.hostToClientFrames = r.hostToClientFrames)
    (hbytes : r₀.hostToClientBufferedBytes = r.hostToClientBufferedBytes) {f : PublicFrame} {bytes out : Bytes}
    (hfaith : out = bytes ∨ (f.type = .hostWelcome ∧ ∃ stripped, out = C.codec.encode (.stripped bytes stripped)))
    (hdec : C.codec.decodePublic bytes = some f)
    (hcorr : f.kind = .response → f.requestId.any (· ∈ r.inFlightRequestIds) = true) (data : P.data) :
    Path C P [] b [] (b.admitHostFrame C c r₀ f r.expectedHostToClientSeq bytes out).2 := by
  unfold Broker.admitHostFrame
  split
  · rw [hid]
    exact walk_markHostPressure hon hopen
  · next hfull =>
    obtain ⟨hfits, hroom⟩ := room_of_not_full hfull
    dsimp only
    have m : Move C P [] b [] (((b.consumeHostFrame r.routeId f).pushFrame c.serial r out true).emit
        (.admitted r.routeId r.expectedHostToClientSeq bytes (some out))) :=
      .accept f bytes out data hon hopen hfaith hdec hcorr ⟨hframes ▸ hfits.1, hbytes ▸ hfits.2⟩ hroom
    have hq : Quiet (((b.consumeHostFrame r.routeId f).pushFrame c.serial r out true).emit
        (.admitted r.routeId r.expectedHostToClientSeq bytes (some out)))
        (((b.consumeHostFrame r₀.routeId f).pushClient C c.serial r₀ out true).emit
          (.admitted r₀.routeId r.expectedHostToClientSeq bytes (some out))) := by
      rw [← pushFrame_congr hid hconn, hid]
      exact (quiet_pushClient C c.serial r₀ out true _).emit _
    have p : Path C P [] b [] _ := .step m (.quiet hq)
    have h₁ := p.sound h
    have hr₁ : ∃ r₁, (((b.consumeHostFrame r₀.routeId f).pushClient C c.serial r₀ out true).emit
        (.admitted r₀.routeId r.expectedHostToClientSeq bytes (some out))).routeOf r₀.routeId = some r₁ ∧
        r₁.status = .opened := by
      have hconsumed : (b.consumeHostFrame r.routeId f).routeOf r.routeId = _ :=
        routeOf_setRoute_at hon.route (by exact fun _ => rfl)
      have hpush : (((b.consumeHostFrame r.routeId f).pushFrame c.serial r out true).emit
        (.admitted r.routeId r.expectedHostToClientSeq bytes (some out))).routeOf r.routeId = _ :=
        routeOf_setRoute_at hconsumed (by exact fun _ => rfl)
      obtain ⟨r₁, hr₁, hb⟩ := hq.toRoute hpush
      have hst := bare_field Route.bare Route.status (fun _ => rfl) hb
      exact ⟨r₁, (congrArg _ hid).trans hr₁, hst.trans hopen⟩
    obtain ⟨r₁, hr₁, hst₁⟩ := hr₁
    generalize ((b.consumeHostFrame r₀.routeId f).pushClient C c.serial r₀ out true).emit
      (.admitted r₀.routeId r.expectedHostToClientSeq bytes (some out)) = b₁ at p h₁ hr₁ ⊢
    split
    · next c' r' _ hr' =>
      obtain rfl := Option.some.inj (hr₁.symm.trans hr')
      split
      · exact p.trans (walk_markHost_found h₁ hr' hst₁)
      · exact p
    · exact p

theorem walk_deliverHostFrame (h : Sound [] b) (hon : On b c r) (hopen : r.status = .opened) {f : PublicFrame} {bytes : Bytes}
    (hdec : C.codec.decodePublic bytes = some f) (hauth : Broker.hostFrameAuthorized c r f = true)
    (hcorr : f.kind = .response → f.requestId.any (· ∈ r.inFlightRequestIds) = true) (data : P.data) :
    Path C P [] b [] (b.deliverHostFrame C c r f r.expectedHostToClientSeq bytes).2 := by
  obtain ⟨hq, hfaith, hsame, hcar⟩ := quiet_selectExtensions C r f bytes b
  have hadmit : Path C P [] b [] (Broker.admitHostFrame C c r f r.expectedHostToClientSeq bytes
      (b.selectExtensions C r f bytes).1 (b.selectExtensions C r f bytes).2).2 := by
    generalize (b.selectExtensions C r f bytes).2 = b₁ at hq hcar ⊢
    generalize (b.selectExtensions C r f bytes).1 = out at hfaith ⊢
    obtain ⟨r₁, hr₁, hrb⟩ := hq.toRoute hon.route
    have hid := bare_field Route.bare Route.routeId (fun _ => rfl) hrb
    have hst := bare_field Route.bare Route.status (fun _ => rfl) hrb
    have hseq := bare_field Route.bare Route.expectedHostToClientSeq (fun _ => rfl) hrb
    have hconn := bare_field Route.bare Route.connectionId (fun _ => rfl) hrb
    have hon₁ : On b₁ c r₁ := by
      refine ⟨?_, by rw [hid]; exact hr₁, hon.attached, hon.active, ?_, ?_⟩
      · unfold Broker.carrierOf
        rw [hcar]
        exact hon.carrier
      · exact hon.transport.trans (bare_field Route.bare Route.carrierTransportId (fun _ => rfl) hrb).symm
      · exact hon.connector.trans (congrArg some (bare_field Route.bare Route.connectorId (fun _ => rfl) hrb).symm)
    rw [← hseq]
    have hframes := bare_field Route.bare Route.hostToClientFrames (fun _ => rfl) hrb
    have hbytes := bare_field Route.bare Route.hostToClientBufferedBytes (fun _ => rfl) hrb
    have hids := bare_field Route.bare Route.inFlightRequestIds (fun _ => rfl) hrb
    exact (Path.quiet hq).trans (walk_admitHostFrame ((Kept.of_quiet hq).sound h) hon₁ (hst.trans hopen) hid.symm hconn.symm
      hframes.symm hbytes.symm hfaith hdec (by rw [hids]; exact hcorr) data)
  unfold Broker.deliverHostFrame
  dsimp only
  split
  · next e hlane =>
    -- a frame of an extension is no welcome, so it selects nothing
    have hnot : f.type ≠ .hostWelcome := by
      intro hw
      unfold Broker.hostFrameAuthorized at hauth
      rw [hlane, hw] at hauth
      split at hauth
      · cases hauth
      · cases e <;> simp [Extension.hostToClientTypes] at hauth
    rw [hsame hnot] at hadmit ⊢
    split
    · exact hadmit
    · split
      · exact walk_protocolViolation h hon.carrier _
      · next hwithdrawn =>
        have m : Move C P [] b [] ((b.consumeHostFrame r.routeId f).emit
            (.admitted r.routeId r.expectedHostToClientSeq bytes none)) :=
          .consume f bytes data hon (.inr ⟨hopen, e, hlane, by simpa using hwithdrawn⟩) hdec hcorr
        have h₁ := m.sound h
        split
        · refine .step m ?_
          let r₁ : Route := { r with
            expectedHostToClientSeq := r.expectedHostToClientSeq + 1
            inFlightRequestIds := if f.kind = .response then r.inFlightRequestIds.filter (fun id => some id ≠ f.requestId)
              else r.inFlightRequestIds }
          have hr₁ : ((b.consumeHostFrame r.routeId f).emit
              (.admitted r.routeId r.expectedHostToClientSeq bytes none)).routeOf r.routeId = some r₁ :=
            routeOf_setRoute_at hon.route (by exact fun _ => rfl)
          rw [hr₁]
          have hon₁ : On ((b.consumeHostFrame r.routeId f).emit
              (.admitted r.routeId r.expectedHostToClientSeq bytes none)) c r₁ :=
            ⟨hon.carrier, hr₁, hon.attached, hon.active, hon.transport, hon.connector⟩
          exact walk_unavailable h₁ hon₁ hopen f e
        · exact .one m
  · exact hadmit

theorem walk_routeDataChecked (h : Sound [] b) (hon : On b c r) (hst : r.status = .opened ∨ r.status = .closing) (seq : Nat)
    (bytes : Bytes) (data : P.data) : Path C P [] b [] (b.routeDataChecked C c r seq bytes).2 := by
  have bad : ∀ reason, Path C P [] b [] (b.protocolViolation C c reason).2 := walk_protocolViolation h hon.carrier
  unfold Broker.routeDataChecked
  split
  · exact bad _
  · next hseq =>
    obtain rfl : seq = r.expectedHostToClientSeq := by simpa using hseq
    split
    · exact bad _
    · next f hdec =>
      split
      · exact bad _
      · next hforged =>
        simp only [Bool.or_eq_true, not_or, Bool.not_eq_true, Bool.not_eq_false] at hforged
        split
        · exact bad _
        · next huncorrelated =>
          have hcorr : f.kind = .response → f.requestId.any (· ∈ r.inFlightRequestIds) = true := fun hk => by
            simpa [hk] using huncorrelated
          split
          · next hclosing =>
            split
            · exact bad _
            · exact .one (.consume f bytes data hon (.inl hclosing) hdec hcorr)
          · next hclosing =>
            exact walk_deliverHostFrame h hon (hst.resolve_right hclosing) hdec (by simpa using hforged.2) hcorr data

theorem walk_routeDataFromHost (h : Sound [] b) (hc : b.carrierOf c.serial = some c) (hatt : c.attached = true)
    (hact : c.status = .active) (id fence : Nat) (toClient : Bool) (seq : Nat) (bytes : Bytes) (data : P.data) :
    Path C P [] b [] (b.routeDataFromHost C c id fence toClient seq bytes).2 := by
  have bad : ∀ reason, Path C P [] b [] (b.protocolViolation C c reason).2 := walk_protocolViolation h hc
  unfold Broker.routeDataFromHost
  split
  · exact bad _
  · next r hr =>
    have hon := (on_of_currentRoute hc hatt hact hr).1
    split
    · exact bad _
    · next hstale =>
      have hst : r.status = .opened ∨ r.status = .closing := by
        simp only [Bool.or_eq_true, not_or, Bool.and_eq_true, not_and, decide_eq_true_eq, ne_eq, not_not] at hstale
        by_cases ho : r.status = .opened
        · exact .inl ho
        · exact .inr (hstale.1 ho)
      split
      · exact walk_routeDataChecked h hon hst seq bytes data
      · split
        · exact .refl
        · next client _ =>
          rcases isClientAuthorizationActive_spec (C := C) h client with ⟨b₁, heq, rfl⟩ | ⟨b₁, heq, p⟩
          · rw [heq]
            dsimp only
            rw [if_neg (by simp)]
            exact (Path.quiet (.read b)).trans
              (walk_routeDataChecked ((Same.read b).sound h) ((Same.read b).on hon) hst seq bytes data)
          · rw [heq]
            exact p.ends

/-! ## Auth controls -/

theorem walk_authResponse (hc : b.carrierOf c.serial = some c) (hact : c.status = .active ∨ P.late) (requestId : Nat)
    (ok : Bool) : Path C P D b D (b.enqueueAuthControlResponse C c requestId ok).2 :=
  walk_enqueueControl hc (.control _ hc hact (.inl ⟨_, _, rfl⟩))

theorem walk_beginAuthControl (hc : b.carrierOf c.serial = some c) (hact : c.status = .active)
    (connectorId requestId : Nat) (reauthenticate : Bool) :
    Path C P D b D (b.beginAuthControl C c connectorId requestId reauthenticate).2 := by
  unfold Broker.beginAuthControl
  split
  · exact walk_authResponse hc (.inl hact) requestId false
  · exact .quiet ⟨rfl, rfl, rfl, rfl, rfl, rfl, rfl, Nat.le_succ _⟩

theorem walk_decideAuthControl (h : Sound D b) (hc : b.carrierOf c.serial = some c) (hact : c.status = .active)
    (q : AuthRequest) (decision : AuthDecision) : Path C P D b D (b.decideAuthControl C q c decision).2 := by
  have hfail : Path C P D b D (b.failAuthControl C q c).2 := walk_authResponse hc (.inl hact) q.requestId false
  unfold Broker.decideAuthControl
  split
  · exact walk_authResponse hc (.inl hact) q.requestId false
  · exact hfail
  · split
    · exact hfail
    · split
      · split
        · exact hfail
        · exact walk_authResponse hc (.inl hact) q.requestId true
      · split
        · exact hfail
        · next n =>
          split
          · exact hfail
          · next hreplaces =>
            have hsame := Same.admitReplacement c.authContext n b
            obtain ⟨ok, b₁, heq⟩ : ∃ ok b₁, b.admitReplacementAuthorization c.authContext n = (ok, b₁) := ⟨_, _, rfl⟩
            rw [heq] at hsame ⊢
            dsimp only at hsame ⊢
            have hc₁ : b₁.carrierOf c.serial = some c := (hsame.carrierOf _).trans hc
            have h₁ := hsame.sound h
            refine (Path.quiet hsame.quiet).trans ?_
            split
            · exact walk_authResponse hc₁ (.inl hact) q.requestId false
            · have hq : Quiet b₁ (b₁.setCarrier c.serial fun c => { c with authContext := n }) := by
                refine .setCarrier_at h₁.serials fun c' hc' => ?_
                obtain rfl := Option.some.inj (hc₁.symm.trans hc')
                have hhost : n.hostId = c.authContext.hostId := by
                  unfold Broker.replaces at hreplaces
                  simp only [Bool.not_eq_true', Bool.not_eq_false, Bool.and_eq_true, decide_eq_true_eq] at hreplaces
                  exact hreplaces.1.1.2
                unfold Carrier.bare Authorization.bare
                rw [hhost]
              have hc₂ : (b₁.setCarrier c.serial fun c => { c with authContext := n }).carrierOf c.serial =
                  some { c with authContext := n } := carrierOf_setCarrier_at hc₁ fun _ => rfl
              exact (Path.quiet hq).trans (walk_authResponse (c := { c with authContext := n }) hc₂ (.inl hact) q.requestId true)

/-- The carrier of a request that its authority failed on is no longer active. -/
def LateFailure (b : Broker) (id : Nat) (decision : AuthDecision) : Prop :=
  decision = .failed ∧ ∃ q c, b.authRequests.find? (fun q => q.id = id) = some q ∧ b.carrierOf q.serial = some c ∧
    c.status ≠ .active

theorem walk_settleAuthControl (h : Sound [] b) (id : Nat) (decision : AuthDecision) (hlate : LateFailure b id decision → P.late) :
    Path C P [] b [] (b.settleAuthControl C id decision).2 := by
  unfold Broker.settleAuthControl
  split
  · exact .refl
  · next q hq =>
    have hsame : Same b { b with authRequests := b.authRequests.filter fun q => q.id ≠ id } :=
      ⟨rfl, rfl, rfl, rfl, rfl, rfl, rfl, rfl⟩
    have h₁ := hsame.sound h
    refine (Path.quiet hsame.quiet).trans ?_
    dsimp only
    split
    · exact .refl
    · next c hc =>
      have hs := serial_of_carrierOf hc
      split
      · next hfailed =>
        refine walk_authResponse (by rw [hs]; exact hc) ?_ q.requestId false
        by_cases hact : c.status = .active
        · exact .inl hact
        · exact .inr (hlate ⟨hfailed, q, c, hq, hc, hact⟩)
      · split
        · exact .refl
        · next hgone =>
          simp only [Bool.or_eq_true, not_or, decide_eq_true_eq, ne_eq, not_not] at hgone
          rcases isCarrierAuthorizationActive_spec (C := C) h₁ c with ⟨b₂, heq, rfl⟩ | ⟨b₂, heq, p⟩
          · rw [heq]
            dsimp only
            rw [if_neg (by simp)]
            exact (Path.quiet (.read _)).trans (walk_decideAuthControl ((Same.read _).sound h₁) (by rw [hs]; exact hc)
              hgone.1.2 q decision)
          · rw [heq]
            exact p.ends

/-! ## Receiving -/

/-- **`receiveHostFrame`**. -/
theorem walk_receiveHostFrame (h : Sound [] b) (grow : P.grow) (data : P.data) (t : Nat) (frame : Option FromHost) :
    Path C P [] b [] (b.receiveHostFrame C t frame).2 := by
  unfold Broker.receiveHostFrame
  dsimp only
  split
  · exact .refl
  · next c hat =>
    obtain ⟨hc, hatt, _⟩ := h.carrierAt_iff.mp hat
    split
    · exact .refl
    · rcases isCarrierAuthorizationActive_spec (C := C) h c with ⟨b₁, heq, rfl⟩ | ⟨b₁, heq, p⟩
      swap
      · rw [heq]
        exact p.ends
      rw [heq]
      dsimp only
      rw [if_neg (by simp)]
      have h₁ : Sound [] b.read := (Same.read b).sound h
      have hc₁ : b.read.carrierOf c.serial = some c := hc
      refine (Path.quiet (.read b)).trans ?_
      generalize b.read = b₁ at h₁ hc₁ ⊢
      have bad : ∀ reason, Path C P [] b₁ [] (b₁.protocolViolation C c reason).2 := walk_protocolViolation h₁ hc₁
      split
      · exact bad _
      · next f =>
        split
        · next hello hst => exact walk_registerHost h₁ grow hc₁ hatt hst hello
        · exact bad _
        · exact bad _
        · exact .refl
        · exact .refl
        · next hact =>
          split
          · exact bad _
          · split
            · exact bad _
            · exact walk_routeOpened h₁ hc₁ hatt hact _ _ _ _
            · exact walk_routeRejected h₁ hc₁ hatt hact _ _ _ _
            · exact walk_routeDataFromHost h₁ hc₁ hatt hact _ _ _ _ _ data
            · exact walk_routeUnbound h₁ hc₁ hatt hact _ _ _ _
            · exact walk_routeClosedByHost h₁ hc₁ hatt hact _ _ _ _
            · exact walk_beginAuthControl hc₁ hact _ _ _
            · exact bad _

end

end Relay
end TmuxWorktree

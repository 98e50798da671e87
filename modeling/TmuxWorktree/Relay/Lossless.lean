import TmuxWorktree.Relay.Retry
/-!
# Lossless — what is taken on a route arrives, in order and once

The two ways of a route as they stand after any run, what becomes of a frame that is taken, and what becomes of one that is
refused for want of room.  A frame of an agent extension that was withdrawn from its route is taken and goes no further.
-/
namespace TmuxWorktree
namespace Relay

section
variable {C : Config} {b : Broker}

/-! ## Frames that hosts send -/

theorem markHostPressure_trace (id : Nat) (b : Broker) : ∃ l, (b.markHostPressure id).2.trace = l ++ b.trace := by
  unfold Broker.markHostPressure
  split
  · exact ⟨[], rfl⟩
  · dsimp only
    split <;> split <;> first | exact ⟨[], rfl⟩ | exact ⟨[_], rfl⟩

theorem Says.later {b₁ b₂ : Broker} {e : Event} (h : Says b b₁ e) (hl : ∃ l, b₂.trace = l ++ b₁.trace) : Says b b₂ e := by
  obtain ⟨l, hl₁, he⟩ := h
  obtain ⟨l', hl₂⟩ := hl
  exact ⟨l' ++ l, by rw [hl₂, hl₁, List.append_assoc], List.mem_append_right _ he⟩

/-- What became of a host frame that was taken: it is queued for the client, or was of a withdrawn extension. -/
def Taken (C : Config) (r : Route) (bytes : Bytes) : Option Bytes → Prop
  | some out => Faithful C bytes out
  | none => ∃ f e, C.codec.decodePublic bytes = some f ∧ f.lane = some e ∧ r.agentExtensionDispositions e = some .withdrawn

theorem admitHostFrame_tells {c : Carrier} {r : Route} {f : PublicFrame} {seq : Nat} {bytes out : Bytes}
    (h : (b.admitHostFrame C c r f seq bytes out).1.accepted = true) :
    Says b (b.admitHostFrame C c r f seq bytes out).2 (.admitted r.routeId seq bytes (some out)) := by
  unfold Broker.admitHostFrame at *
  split at h
  · cases h
  · next hroom =>
    rw [if_neg hroom]
    dsimp only
    have htells := pushClient_tells C c.serial r out true (.admitted r.routeId seq bytes (some out))
      (b.consumeHostFrame r.routeId f)
    split
    · split
      · exact htells.later (markHostPressure_trace _ _)
      · exact htells
    · exact htells

theorem selectExtensions_faithful (b : Broker) (r : Route) {f : PublicFrame} {bytes : Bytes}
    (hdec : C.codec.decodePublic bytes = some f) : Faithful C bytes (b.selectExtensions C r f bytes).1 := by
  rcases (quiet_selectExtensions C r f bytes b).2.1 with h | ⟨hw, stripped, h⟩
  · exact .inl h
  · exact .inr ⟨f, stripped, hdec, hw, h⟩

/-- **What an accepted host frame became** on a route that is open. -/
theorem deliverHostFrame_tells {c : Carrier} {r : Route} {f : PublicFrame} {seq : Nat} {bytes : Bytes}
    (hdec : C.codec.decodePublic bytes = some f) (hauth : Broker.hostFrameAuthorized c r f = true)
    (h : (b.deliverHostFrame C c r f seq bytes).1.accepted = true) :
    ∃ out, Taken C r bytes out ∧ Says b (b.deliverHostFrame C c r f seq bytes).2 (.admitted r.routeId seq bytes out) := by
  have hselect := (quiet_selectExtensions C r f bytes b).1.trace
  unfold Broker.deliverHostFrame at *
  dsimp only at *
  have hadmit : ((b.selectExtensions C r f bytes).2.admitHostFrame C c r f seq bytes (b.selectExtensions C r f bytes).1).1.accepted =
      true → ∃ out, Taken C r bytes out ∧ Says b ((b.selectExtensions C r f bytes).2.admitHostFrame C c r f seq bytes
        (b.selectExtensions C r f bytes).1).2 (.admitted r.routeId seq bytes out) := fun h =>
    ⟨some _, selectExtensions_faithful b r hdec, (admitHostFrame_tells h).of_trace hselect.symm rfl⟩
  cases hlane : f.lane with
  | none =>
    rw [hlane] at h
    exact hadmit h
  | some e =>
    rw [hlane] at h
    dsimp only at h ⊢
    split at h
    · next hneg =>
      rw [if_pos hneg]
      exact hadmit h
    · next hneg =>
      rw [if_neg hneg]
      have hsame := (quiet_selectExtensions C r f bytes b).2.2.1 (not_hostWelcome hlane hauth)
      rw [hsame] at h ⊢
      split at h
      · cases h
      · next hwithdrawn =>
        rw [if_neg hwithdrawn]
        have htaken : Says b ((b.consumeHostFrame r.routeId f).emit (.admitted r.routeId seq bytes none))
            (.admitted r.routeId seq bytes none) := ⟨[_], rfl, List.mem_singleton.mpr rfl⟩
        refine ⟨none, ⟨f, e, hdec, hlane, by simpa using hwithdrawn⟩, ?_⟩
        split at h
        · next hk =>
          rw [if_pos hk]
          split at h
          · next r' _ =>
            obtain ⟨_, l, hl, _⟩ := unavailable_tells C c r' f e _ h
            exact htaken.later ⟨l, hl⟩
          · exact htaken
        · next hk =>
          rw [if_neg hk]
          exact htaken

theorem routeDataChecked_tells {c : Carrier} {r : Route} {seq : Nat} {bytes : Bytes} (hst : r.status = .opened)
    (h : (b.routeDataChecked C c r seq bytes).1.accepted = true) :
    seq = r.expectedHostToClientSeq ∧
      ∃ out, Taken C r bytes out ∧ Says b (b.routeDataChecked C c r seq bytes).2 (.admitted r.routeId seq bytes out) := by
  unfold Broker.routeDataChecked at *
  split at h
  · cases h
  · next hseq =>
    rw [if_neg hseq]
    refine ⟨by simpa using hseq, ?_⟩
    cases hf : C.codec.decodePublic bytes with
    | none =>
      rw [hf] at h
      cases h
    | some f =>
      rw [hf] at h
      dsimp only at h ⊢
      split at h
      · cases h
      · next hid =>
        rw [if_neg hid]
        split at h
        · cases h
        · next hresp =>
          rw [if_neg hresp, if_neg (by rw [hst]; decide)]
          rw [if_neg (by rw [hst]; decide)] at h
          simp only [Bool.or_eq_true, not_or, Bool.not_eq_true', Bool.not_eq_false] at hid
          exact deliverHostFrame_tells hf hid.2 h

/-- **An accepted host frame is in the trace of its own route.** -/
theorem routeDataFromHost_tells (hs : Sound [] b) {c : Carrier} {id fence seq : Nat} {toClient : Bool} {bytes : Bytes}
    {r : Route} (hr : b.routeOf id = some r) (hst : r.status = .opened)
    (h : (b.routeDataFromHost C c id fence toClient seq bytes).1.accepted = true) :
    seq = r.expectedHostToClientSeq ∧ ∃ out, Taken C r bytes out ∧
      Says b (b.routeDataFromHost C c id fence toClient seq bytes).2 (.admitted id seq bytes out) := by
  unfold Broker.routeDataFromHost at *
  cases hcur : b.currentRouteForFrame c id fence with
  | none =>
    rw [hcur] at h
    cases h
  | some r' =>
    obtain rfl : r' = r := Option.some.inj ((Option.filter_eq_some_iff.mp hcur).1.symm.trans hr)
    rw [hcur] at h
    dsimp only at h ⊢
    split at h
    · cases h
    · next hok =>
      rw [if_neg hok, if_neg (by rw [hst]; decide)]
      rw [if_neg (by rw [hst]; decide)] at h
      cases hcl : b.clientAt r'.connectionId with
      | none =>
        rw [hcl] at h
        cases h
      | some client =>
        rw [hcl] at h
        dsimp only at h ⊢
        rcases isClientAuthorizationActive_spec (C := C) hs client with ⟨b₁, heq, rfl⟩ | ⟨b₁, heq, _⟩
        case inr =>
          rw [heq] at h
          cases h
        rw [heq] at h ⊢
        dsimp only at h ⊢
        rw [← id_of_routeOf hr]
        obtain ⟨hseq, out, htaken, hsaid⟩ := routeDataChecked_tells hst h
        exact ⟨hseq, out, htaken, hsaid.of_trace rfl rfl⟩

theorem receiveHostFrame_routeData (hs : Sound [] b) (t k id fence : Nat) (toClient : Bool) (seq : Nat) (bytes : Bytes) :
    ((b.receiveHostFrame C t (some (.routeData k id fence toClient seq bytes))).1.accepted = false ∧
      ∀ e, (b.receiveHostFrame C t (some (.routeData k id fence toClient seq bytes))).1.error = some e → e.code ≠ .slowConsumer) ∨
    ∃ c, b.receiveHostFrame C t (some (.routeData k id fence toClient seq bytes)) =
      b.read.routeDataFromHost C c id fence toClient seq bytes := by
  have hviolated : ∀ (b : Broker) (c : Carrier) (reason : String), (b.protocolViolation C c reason).1.accepted = false ∧
      ∀ e, (b.protocolViolation C c reason).1.error = some e → e.code ≠ .slowConsumer := by
    refine fun b c reason => ⟨rfl, fun e he => ?_⟩
    rw [protocolViolation_error] at he
    cases he
    decide
  unfold Broker.receiveHostFrame
  dsimp only
  split
  · exact .inl ⟨rfl, fun e he => by cases he; decide⟩
  · next c _ =>
    split
    · exact .inl ⟨rfl, fun e he => by cases he; decide⟩
    · rcases isCarrierAuthorizationActive_spec (C := C) hs c with ⟨b₁, heq, rfl⟩ | ⟨b₁, heq, _⟩
      case inr =>
        rw [heq]
        exact .inl ⟨rfl, fun e he => by cases he; decide⟩
      rw [heq]
      dsimp only
      rw [if_neg (by decide)]
      cases c.status with
      | pending | registering => exact .inl (hviolated _ _ _)
      | superseded | closed => exact .inl ⟨rfl, fun e he => by cases he; decide⟩
      | active =>
        dsimp only
        split
        · exact .inl (hviolated _ _ _)
        · exact .inr ⟨c, rfl⟩

theorem routeDataFromHost_refused (hs : Sound [] b) {c : Carrier} {id fence seq : Nat} {toClient : Bool} {bytes : Bytes}
    {r r' : Route} {e : StructuredError} (hr : b.routeOf id = some r) (hst : r.status = .opened)
    (herr : (b.routeDataFromHost C c id fence toClient seq bytes).1.error = some e) (hcode : e.code = .slowConsumer)
    (hr' : (b.routeDataFromHost C c id fence toClient seq bytes).2.routeOf id = some r') (opened : r'.status = .opened) :
    seq = r.expectedHostToClientSeq ∧
      ∃ f, Takes C (b.routeDataFromHost C c id fence toClient seq bytes).2 c r' seq bytes f := by
  unfold Broker.routeDataFromHost at *
  have hviolated : ∀ reason, (b.protocolViolation C c reason).1.error = some e → False := by
    intro reason h
    rw [protocolViolation_error] at h
    cases h
    cases hcode
  cases hcur : b.currentRouteForFrame c id fence with
  | none =>
    rw [hcur] at herr
    exact (hviolated _ herr).elim
  | some r₁ =>
    obtain rfl : r₁ = r := Option.some.inj ((Option.filter_eq_some_iff.mp hcur).1.symm.trans hr)
    rw [hcur] at herr hr'
    dsimp only at herr hr' ⊢
    split at herr
    · exact (hviolated _ herr).elim
    · next hok =>
      rw [if_neg hok, if_neg (by rw [hst]; decide)] at hr' ⊢
      rw [if_neg (by rw [hst]; decide)] at herr
      cases hcl : b.clientAt r₁.connectionId with
      | none =>
        rw [hcl] at herr
        cases herr
        cases hcode
      | some client =>
        rw [hcl] at herr hr'
        dsimp only at herr hr' ⊢
        rcases isClientAuthorizationActive_spec (C := C) hs client with ⟨b₁, heq, rfl⟩ | ⟨b₁, heq, _⟩
        case inr =>
          rw [heq] at herr
          cases herr
          cases hcode
        rw [heq] at herr hr' ⊢
        dsimp only at herr hr' ⊢
        obtain rfl := id_of_routeOf hr
        exact routeDataChecked_refused (b := b.read) hr (.inl hst) herr hcode hr' opened

/-- **A frame that passes the checks is taken on its route** when there is room and its client is authorized. -/
theorem Takes.accepted_fromHost (hs : Sound [] b) {c : Carrier} {r : Route} {id fence seq : Nat} {bytes : Bytes}
    {f : PublicFrame} {client : Client} (h : Takes C b c r seq bytes f) (hcur : b.currentRouteForFrame c id fence = some r)
    (hclient : b.clientAt r.connectionId = some client) (active : (b.isClientAuthorizationActive C client).1 = true)
    (room : Broker.hostToClientFull c r (b.selectExtensions C r f bytes).1 = false) :
    (b.routeDataFromHost C c id fence true seq bytes).1.accepted = true := by
  unfold Broker.routeDataFromHost
  rw [hcur]
  dsimp only
  rw [if_neg (by simp [h.opened]), if_neg (by rw [h.opened]; decide), hclient]
  dsimp only
  rcases isClientAuthorizationActive_spec (C := C) hs client with ⟨b₁, heq, rfl⟩ | ⟨b₁, heq, _⟩
  case inr =>
    rw [heq] at active
    cases active
  rw [heq]
  have hsame : (b.read.selectExtensions C r f bytes).1 = (b.selectExtensions C r f bytes).1 := by
    unfold Broker.selectExtensions
    split <;> rfl
  exact Takes.accepted (b := b.read) ⟨h.opened, h.seq, h.decoded, h.fits, h.authorized, h.correlated, h.negotiated⟩
    (hsame ▸ room)

end

/-! ## The ways of the routes -/

/-- **Both ways of an open route**: what its client sent is with the host or queued, what was queued for its client is with
it or still queued, and the frames of either side are numbered from one. -/
structure Lossless (C : Config) (b : Broker) (r : Route) : Prop where
  sent : ∀ c, b.carrierAt r.carrierTransportId = some c → forwards r.routeId b.trace =
    dispatches r.routeId b.trace ++ (c.entries r.routeId).filterMap QueuedCarrierFrame.payload
  sentNumbers : (forwards r.routeId b.trace).map Prod.fst = List.range' 1 (forwards r.routeId b.trace).length
  sentNext : r.nextClientToHostSeq = (forwards r.routeId b.trace).length + 1
  handed : ∀ client, b.clientAt r.connectionId = some client → pushes C r.routeId b.trace =
    hands r.routeId b.trace ++ client.queue.map QueuedClientFrame.bytes
  takenNumbers : (admits r.routeId b.trace).map Prod.fst = List.range' 1 (admits r.routeId b.trace).length
  takenNext : r.expectedHostToClientSeq = (admits r.routeId b.trace).length + 1
  faithful : ∀ seq bytes out, .admitted r.routeId seq bytes (some out) ∈ b.trace → Faithful C bytes out
  kept : ∀ seq bytes, .admitted r.routeId seq bytes none ∈ b.trace → OfExtension C bytes

/-- **The routes of a broker lose nothing, keep the order and do not mix.** -/
structure FifoRoutes (C : Config) (b : Broker) : Prop where
  ways : ∀ id r, b.routeOf id = some r → r.status = .opened → Lossless C b r
  forwarded : ∀ k bytes, (b.forwardClientFrame C k bytes).1.accepted = true →
    ∃ r ∈ b.routes, r.connectionId = k ∧ r.status = .opened ∧
      (Says b (b.forwardClientFrame C k bytes).2 (.forwarded r.routeId r.nextClientToHostSeq bytes) ∨
        ∃ made, Says b (b.forwardClientFrame C k bytes).2 (.made r.routeId made))
  taken : ∀ t k id fence toClient seq bytes r, b.routeOf id = some r → r.status = .opened →
    (b.receiveHostFrame C t (some (.routeData k id fence toClient seq bytes))).1.accepted = true →
    seq = r.expectedHostToClientSeq ∧ ∃ out, Taken C r bytes out ∧
      Says b (b.receiveHostFrame C t (some (.routeData k id fence toClient seq bytes))).2 (.admitted id seq bytes out)
  refused : ∀ t k id fence toClient seq bytes r r' e, b.routeOf id = some r → r.status = .opened →
    (b.receiveHostFrame C t (some (.routeData k id fence toClient seq bytes))).1.error = some e → e.code = .slowConsumer →
    (b.receiveHostFrame C t (some (.routeData k id fence toClient seq bytes))).2.routeOf id = some r' → r'.status = .opened →
    r'.expectedHostToClientSeq = r.expectedHostToClientSeq ∧
      ∃ c f, Takes C (b.receiveHostFrame C t (some (.routeData k id fence toClient seq bytes))).2 c r' seq bytes f
  retried : ∀ c r id fence seq bytes f client, Takes C b c r seq bytes f → b.currentRouteForFrame c id fence = some r →
    b.clientAt r.connectionId = some client → (b.isClientAuthorizationActive C client).1 = true →
    Broker.hostToClientFull c r (b.selectExtensions C r f bytes).1 = false →
    (b.routeDataFromHost C c id fence true seq bytes).1.accepted = true
  fenced : ∀ s id fence seq bytes, .dispatched s (.routeData id fence seq bytes) ∈ b.trace →
    ∃ k, .created id k fence ∈ b.trace
  addressed : ∀ k id bytes, .handed k id bytes ∈ b.trace → ∃ fence, .created id k fence ∈ b.trace
  once : ∀ id k fence k' fence', .created id k fence ∈ b.trace → .created id k' fence' ∈ b.trace → k = k' ∧ fence = fence'

section
variable {C : Config} {b : Broker}

theorem Piped.lossless (h : Piped C b) (hs : Sound [] b) {r : Route} (hr : b.routeOf r.routeId = some r)
    (hst : r.status = .opened) : Lossless C b r where
  sent c hc := by
    obtain ⟨hmem, hatt, ht⟩ := carrierAt_spec hc
    exact (h.up.at_ _).pipe c.serial c r (hs.carrierOf_mem hmem) hr hst hatt ht
  sentNumbers := (h.up.at_ _).numbered
  sentNext := (h.up.at_ _).next r hr
  handed client hc := (h.down.at_ _).pipe r client hr hst hc
  takenNumbers := (h.down.at_ _).numbered
  takenNext := (h.down.at_ _).expected r hr
  faithful seq bytes out he := h.down.faithful _ seq bytes out he
  kept seq bytes he := (h.down.at_ _).kept r hr (by rw [hst]; decide) seq bytes he

theorem Piped.fifoRoutes (h : Piped C b) (hs : Sound [] b) : FifoRoutes C b where
  ways id r hr hst := by
    obtain rfl := id_of_routeOf hr
    exact h.lossless hs hr hst
  forwarded k bytes accepted := forwardClientFrame_tells hs k bytes accepted
  taken t k id fence toClient seq bytes r hr hst accepted := by
    rcases receiveHostFrame_routeData hs t k id fence toClient seq bytes with ⟨hn, _⟩ | ⟨c, heq⟩
    · rw [hn] at accepted
      cases accepted
    · rw [heq] at accepted ⊢
      have hread : Sound [] b.read := (Kept.of_quiet (.read b)).sound hs
      obtain ⟨hseq, out, htaken, hsaid⟩ := routeDataFromHost_tells hread hr hst accepted
      exact ⟨hseq, out, htaken, hsaid.of_trace rfl rfl⟩
  refused t k id fence toClient seq bytes r r' e hr hst herr hcode hr' opened := by
    rcases receiveHostFrame_routeData hs t k id fence toClient seq bytes with ⟨_, hn⟩ | ⟨c, heq⟩
    · exact absurd hcode (hn e herr)
    · rw [heq] at herr hr' ⊢
      have hread : Sound [] b.read := (Kept.of_quiet (.read b)).sound hs
      obtain ⟨hseq, f, htakes⟩ := routeDataFromHost_refused hread hr hst herr hcode hr' opened
      exact ⟨htakes.seq.symm.trans hseq, c, f, htakes⟩
  retried c r id fence seq bytes f client htakes hcur hclient active room :=
    htakes.accepted_fromHost hs hcur hclient active room
  fenced s id fence seq bytes he := h.up.fenced s id fence seq bytes he
  addressed k id bytes he := h.down.addressed k id bytes he
  once id k fence k' fence' he he' := h.told.once id k fence k' fence' he he'

end

/-- A codec of three frames: a `client.hello` that offers chat, the `host.welcome` that selects it, and a chat event. -/
def chatCodec : Codec where
  decodePublic data :=
    if data.content = 1 then
      some { lane := none, kind := .request, type := .clientHello, requestId := some 1, clientInstanceId := some 6,
             capabilities := [.optional .chat] }
    else if data.content = 2 then
      some { lane := none, kind := .response, type := .hostWelcome, requestId := some 1, capabilities := [.optional .chat] }
    else if data.content = 3 then
      some { lane := some .chat, kind := .event, type := .chatEvent, hostId := some 7, hostEpoch := some 100 }
    else none
  wireBytes _ := 400
  encode _ := ⟨500, 700⟩

def chatConfig : Config := ⟨chatCodec, true, true, true, true⟩

def chatHello : HostHello := ⟨1, 7, 100, 101, true, true, requiredCapabilities ++ [.optional .chat], 1048576, 65536⟩

def chatClient : Authorization := ⟨.client, 7, 1, 2, some 6, 4, 4, 1000000, 1, 9⟩

def chatStart : Broker := Broker.start [.chat] fun _ => ⟨5, false⟩

def chatWithdrawn : List Op :=
  [.attach 1 sampleHost 11, .receive 1 (some (.hello chatHello)), .controlDelivered 1 2, .open 20 chatClient 21,
    .receive 1 (some (.routeOpened 1 3 4 5 65536)), .forward 20 ⟨1, 50⟩, .drainHost 1 9 99999 false,
    .receive 1 (some (.routeData 1 3 4 true 1 ⟨2, 60⟩)), .withdraw .chat]

end Relay
end TmuxWorktree

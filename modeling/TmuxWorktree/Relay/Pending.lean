import TmuxWorktree.Relay.Single
/-!
# Pending — a candidate whose owner goes away

The commit of a registration compares the directory revision with the one its `host.registered` was based on, and asks for
the owner that it was to replace.  Whoever loses an owner raises the revision.  `disconnectHost` then bases the candidate
anew; `protocolViolation` and `cleanupFencedHostAuthorization` do not, and the candidate is turned down.
-/
namespace TmuxWorktree
namespace Relay

section
variable {C : Config} {b : Broker} {host : Nat}

/-! ## The owner that is lost -/

theorem buryCarrier_carrierOf_ne {s x : Nat} (hx : x ≠ s) (b : Broker) : (b.buryCarrier s).carrierOf x = b.carrierOf x := by
  unfold Broker.buryCarrier
  rw [carrierOf_setCarrier_ne (by exact fun _ => rfl) hx]
  unfold Broker.discardCarrier
  split
  · exact carrierOf_setCarrier_ne (by exact fun _ => rfl) hx
  · next c _ =>
    refine (carrierOf_setCarrier_ne (by exact fun _ => rfl) hx).trans ?_
    exact (congrArg (Keyed.find Carrier.serial x) (discardCarrier_carriers c.inFlight _)).trans
      (carrierOf_setCarrier_ne (by exact fun _ => rfl) hx)

theorem buryCarrier_directory (s : Nat) (b : Broker) : (b.buryCarrier s).directory = b.directory := by
  show (Broker.discardCarrier s _).directory = _
  unfold Broker.discardCarrier
  split
  · rfl
  · next c _ => exact (Kept.discardCarrier_routes c.inFlight _).directory

theorem buryCarrier_detached {s : Nat} {c : Carrier} (hc : (b.buryCarrier s).carrierOf s = some c) : c.attached = false := by
  unfold Broker.buryCarrier at hc
  rw [carrierOf_setCarrier_self (by exact fun _ => rfl)] at hc
  obtain ⟨_, _, rfl⟩ := Option.map_eq_some_iff.mp hc
  rfl

/-- **The owner that disconnects is not the owner any more.** -/
theorem Op.Dethrones.revision {op : Op} (hd : op.Dethrones b host) (h : Sound [] b) :
    b.revisionOf host < (op.run C b).revisionOf host := by
  obtain ⟨hle, hor⟩ := (op.walk (C := C) h).owner h host
  obtain ⟨t, c, rfl, hat, _, rfl, howner⟩ := hd
  refine hor.resolve_left fun heq => ?_
  rw [howner] at heq
  obtain ⟨c', hc', _, hatt, _⟩ := ((Op.walk (C := C) (.disconnect t) h).sound h).owner_spec heq
  have hgone : c'.attached = false := by
    change (b.disconnectHost C t).2.carrierOf c.serial = some c' at hc'
    unfold Broker.disconnectHost at hc'
    rw [hat] at hc'
    exact buryCarrier_detached hc'
  rw [hgone] at hatt
  cases hatt

theorem Op.revision_lost {op : Op} (h : Sound [] b) {p : Carrier} (howner : b.active.lookup host = some p.serial)
    (lost : ∀ p', (op.run C b).carrierOf p.serial = some p' → p'.status ≠ .active) :
    b.revisionOf host < (op.run C b).revisionOf host := by
  refine ((op.walk (C := C) h).owner h host).2.resolve_left fun heq => ?_
  rw [howner] at heq
  obtain ⟨p', hp', _, _, hact, _⟩ := ((op.walk (C := C) h).sound h).owner_spec heq
  exact lost p' hp' hact

/-! ## The candidate that waits -/

theorem Op.waiting {op : Op} (h : Sound [] b) {n : Carrier} (hn : b.carrierOf n.serial = some n) (hst : n.status ≠ .pending) :
    ∃ n', (op.run C b).carrierOf n.serial = some n' ∧ n'.serial = n.serial ∧ n'.status ≠ .pending ∧
      n'.authContext.hostId = n.authContext.hostId ∧ n'.transportId = n.transportId ∧ n'.connectorId = n.connectorId ∧
      (n'.status = .registering → n.status = .registering ∧
        (n'.registration = n.registration ∨ op.Dethrones b n.authContext.hostId)) := by
  obtain ⟨n', hn', hf⟩ := (op.walk (C := C) h).follows h hn hst
  refine ⟨n', hn', serial_of_carrierOf hn', hf.greeted, hf.host, hf.transport, hf.connector, fun hr => ?_⟩
  obtain ⟨hr', _, hg⟩ := hf.waiting hr List.not_mem_nil
  exact ⟨hr', hg⟩

theorem run_revision (C : Config) (ops : List Op) {b : Broker} (h : Sound [] b) (host : Nat) :
    b.revisionOf host ≤ (run C ops b).revisionOf host := by
  induction ops generalizing b with
  | nil => exact Nat.le_refl _
  | cons op ops ih => exact Nat.le_trans ((op.walk (C := C) h).owner h host).1 (ih ((op.walk h).sound h))

/-- **While the directory record of its host stays, a candidate that waits keeps its registration.** -/
theorem run_waiting (ops : List Op) (h : Sound [] b) {n n₂ : Carrier} (hn : b.carrierOf n.serial = some n)
    (hst : n.status ≠ .pending) (still : (run C ops b).revisionOf n.authContext.hostId = b.revisionOf n.authContext.hostId)
    (hn₂ : (run C ops b).carrierOf n.serial = some n₂) (waits : n₂.status = .registering) :
    n.status = .registering ∧ n₂.registration = n.registration ∧ n₂.serial = n.serial ∧
      n₂.authContext.hostId = n.authContext.hostId ∧ n₂.transportId = n.transportId ∧ n₂.connectorId = n.connectorId := by
  induction ops generalizing b n with
  | nil =>
    obtain rfl := Option.some.inj (hn.symm.trans hn₂)
    exact ⟨waits, rfl, rfl, rfl, rfl, rfl⟩
  | cons op ops ih =>
    have h₁ := (op.walk (C := C) h).sound h
    obtain ⟨n₁, hn₁, hs₁, hst₁, hh₁, ht₁, hk₁, hw₁⟩ := op.waiting (C := C) h hn hst
    have hle : b.revisionOf n.authContext.hostId ≤ (op.run C b).revisionOf n.authContext.hostId :=
      ((op.walk (C := C) h).owner h _).1
    have hle' : (op.run C b).revisionOf n.authContext.hostId ≤ (run C (op :: ops) b).revisionOf n.authContext.hostId :=
      run_revision C ops h₁ _
    have heq : (op.run C b).revisionOf n.authContext.hostId = b.revisionOf n.authContext.hostId := by omega
    obtain ⟨hr₁, hg, hs, hh, ht, hk⟩ := ih h₁ (hs₁ ▸ hn₁) hst₁
      (by rw [hh₁, heq]; exact still) (hs₁ ▸ hn₂)
    obtain ⟨hr, hg₁⟩ := hw₁ hr₁
    refine ⟨hr, hg.trans (hg₁.resolve_right fun hd => ?_), hs.trans hs₁, hh.trans hh₁, ht.trans ht₁, hk.trans hk₁⟩
    exact absurd (hd.revision (C := C) h) (by omega)

/-! ## Based anew -/

/-- **`disconnectHost` bases the candidate anew.** -/
theorem disconnect_rebases (h : Sound [] b) {p n : Carrier} {g : Registration} (hp : b.carrierAt p.transportId = some p)
    (owns : p.status = .active) (hn : b.carrierOf n.serial = some n) (waits : n.status = .registering)
    (hg : n.registration = some g) (hprev : g.previousTransportId = some p.transportId)
    (hhost : p.authContext.hostId = n.authContext.hostId) :
    ∃ n', (b.disconnectHost C p.transportId).2.carrierOf n.serial = some n' ∧ n'.status = .registering ∧
      n'.registration = some { g with
        previousTransportId := none
        baseDirectoryRevision := (b.disconnectHost C p.transportId).2.revisionOf n.authContext.hostId } := by
  have hpof : b.carrierOf p.serial = some p := (h.carrierAt_iff.mp hp).1
  have howner : b.active.lookup p.authContext.hostId = some p.serial :=
    h.owned.activeOf p.serial p.face (ownership_carrier hpof) owns List.not_mem_nil
  have hconn := (h.host_of_active hpof howner).2.2.2.1
  have hne : n.serial ≠ p.serial := by
    intro heq
    rw [heq, hpof] at hn
    obtain rfl := Option.some.inj hn
    rw [owns] at waits
    cases waits
  unfold Broker.disconnectHost
  rw [hp]
  dsimp only
  rw [show b.forgetRegistration p = b from if_neg (by rw [owns]; simp), if_pos ⟨owns, hconn, howner⟩]
  dsimp only
  -- the candidate has kept its registration when the owner has gone offline
  have hm := Move.sound (C := C) (P := .ending) h (.mark p.serial)
  obtain ⟨path, _, _, hreg₁⟩ := walk_goOffline (C := C) h hpof List.not_mem_nil
  have h₁ := path.sound hm
  obtain ⟨n₁, hn₁, hf₁⟩ := path.follows hm hn (by rw [waits]; simp)
  generalize (b.goOffline C p).2 = b₁ at hreg₁ h₁ hn₁ ⊢
  have hlook : b₁.registering.lookup p.authContext.hostId = some n.serial := by
    rw [hreg₁, hhost]
    exact h.owned.registeringOf n.serial n.face (ownership_carrier hn) waits List.not_mem_nil
  have hs₁ := serial_of_carrierOf hn₁
  have hst₁ : n₁.status = .registering := (h₁.host_of_registering hn₁ hlook).2
  have hreg : n₁.registration = some g :=
    ((hf₁.waiting hst₁ (by simpa using hne)).2.2.resolve_right id).trans hg
  have hrebase : b₁.rebaseRegistration p = b₁.setCarrier n.serial fun c => { c with registration := some { g with
      previousTransportId := none
      baseDirectoryRevision := b₁.revisionOf p.authContext.hostId } } := by
    unfold Broker.rebaseRegistration Broker.registeringAt
    rw [hlook, Option.bind_some, hn₁]
    dsimp only
    rw [hreg]
    dsimp only
    rw [if_pos hprev, hs₁]
    rfl
  rw [hrebase]
  refine ⟨{ n₁ with registration := some { g with
    previousTransportId := none
    baseDirectoryRevision := b₁.revisionOf p.authContext.hostId } }, ?_, hst₁, ?_⟩
  · rw [buryCarrier_carrierOf_ne hne]
    exact carrierOf_setCarrier_at hn₁ (by exact fun _ => rfl)
  · have hrev : ∀ host, ((b₁.setCarrier n.serial fun c => { c with registration := some { g with
        previousTransportId := none
        baseDirectoryRevision := b₁.revisionOf p.authContext.hostId } }).buryCarrier p.serial).revisionOf host =
          b₁.revisionOf host := by
      intro host
      unfold Broker.revisionOf Broker.recordOf
      rw [buryCarrier_directory]
      rfl
    rw [hrev, hhost]

/-! ## The commit -/

/-- **The acknowledgement of the registration delivery of `n` is accepted**, `n` owns its host, and the directory says so. -/
structure Commits (C : Config) (b : Broker) (n : Carrier) (deliveryId : Nat) : Prop where
  accepted : (b.acknowledgeHostControlDelivery C n.transportId deliveryId).1.accepted = true
  active : ∃ c, (b.acknowledgeHostControlDelivery C n.transportId deliveryId).2.activeAt n.authContext.hostId = some c ∧
    c.serial = n.serial ∧ c.status = .active
  online : ∃ d, (b.acknowledgeHostControlDelivery C n.transportId deliveryId).2.recordOf n.authContext.hostId = some d ∧
    d.online = true ∧ d.connectorId = n.connectorId

section
variable {n : Carrier} {g : Registration}

theorem Sound.candidate (h : Sound [] b) (hn : b.carrierOf n.serial = some n) (waits : n.status = .registering) :
    b.registering.lookup n.authContext.hostId = some n.serial ∧ b.carrierAt n.transportId = some n ∧
      n.connectorId.isSome = true ∧ n.hello.isSome = true := by
  have hlook := h.owned.registeringOf n.serial n.face (ownership_carrier hn) waits List.not_mem_nil
  obtain ⟨f, hf, _, hatt, _, hconn, hgreet⟩ := h.owned.registering _ _ hlook
  obtain rfl := Option.some.inj ((ownership_carrier hn).symm.trans hf)
  exact ⟨hlook, h.carrierAt_iff.mpr ⟨hn, hatt, rfl⟩, hconn, hgreet⟩

theorem acknowledge_refused (h : Sound [] b) (hn : b.carrierOf n.serial = some n) (waits : n.status = .registering)
    (hg : n.registration = some g)
    (stale : (b.isCarrierAuthorizationActive C n).1 = false ∨ b.revisionOf n.authContext.hostId ≠ g.baseDirectoryRevision) :
    (b.acknowledgeHostControlDelivery C n.transportId g.deliveryId).1.accepted = false := by
  obtain ⟨hlook, hat, hconn, hgreet⟩ := h.candidate hn waits
  obtain ⟨hello, hhello⟩ := Option.isSome_iff_exists.mp hgreet
  unfold Broker.acknowledgeHostControlDelivery
  rw [hat]
  dsimp only
  rw [hhello, hg]
  dsimp only
  split
  · rfl
  · rcases isCarrierAuthorizationActive_spec (C := C) h n with ⟨b₁, heq, rfl⟩ | ⟨b₁, heq, _⟩
    · rw [heq] at stale ⊢
      dsimp only
      rw [if_neg (by simp)]
      have hrev : ((b.read.recordOf n.authContext.hostId).map DirectoryRecord.revision).getD 0 ≠ g.baseDirectoryRevision :=
        stale.resolve_left (by simp)
      rw [if_pos (by simp [hrev])]
      rfl
    · rw [heq]
      dsimp only
      rw [if_pos (by simp)]
      rfl

theorem Kept.enqueueControl (C : Config) (s : Nat) (frame : ToHost) (route : Option Nat) (b : Broker) :
    Kept b (b.enqueueCarrierControl C s frame route).2 := by
  unfold Broker.enqueueCarrierControl
  split
  · exact .refl b
  · dsimp only
    split
    · exact .refl b
    · have hpush : Kept b (b.pushControl s (Broker.controlEntry C frame route)) := .setCarrier b s fun _ => ⟨rfl, rfl⟩
      split
      · exact hpush.trans (.of_quiet (.signalCarrier C s true _))
      · exact hpush

theorem Kept.flushHostWarning (C : Config) (s : Nat) (b : Broker) :
    Kept b (b.flushDeferredHostAuthExpiringWarning C s).2 := by
  have hset : ∀ (b : Broker) (w : Option Warning), Kept b (b.setCarrier s fun c => { c with authExpiringWarning := w }) :=
    fun b w => .setCarrier b s fun _ => ⟨rfl, rfl⟩
  have hread : Kept b b.read := .of_quiet (.read b)
  unfold Broker.flushDeferredHostAuthExpiringWarning
  split
  · exact .refl b
  · next c hc =>
    split
    · exact .refl b
    · next w _ =>
      split
      · exact .refl b
      · split
        · exact hset b none
        · split
          · exact hread.trans (hset _ none)
          · have hs := serial_of_carrierOf hc
            have hwarn : Kept b.read (b.read.enqueueHostAuthExpiringWarning C c w.jti w.expiresAtMs).2 := by
              unfold Broker.enqueueHostAuthExpiringWarning
              rw [hs]
              split
              · exact .refl _
              · dsimp only
                split
                · exact .enqueueControl C s _ _ _
                · exact (Kept.enqueueControl C s _ _ _).trans (hset _ _)
            dsimp only
            split
            · exact hread.trans hwarn
            · exact (hread.trans hwarn).trans (hset _ none)

/-- **A candidate that is based on the directory as it is, of a host without an owner, is committed.** -/
theorem acknowledge_commits (h : Sound [] b) (hn : b.carrierOf n.serial = some n) (waits : n.status = .registering)
    (hg : n.registration = some g) (authorized : (b.isCarrierAuthorizationActive C n).1 = true)
    (base : b.revisionOf n.authContext.hostId = g.baseDirectoryRevision) (free : g.previousTransportId = none) :
    Commits C b n g.deliveryId := by
  obtain ⟨hlook, hat, hconn, hgreet⟩ := h.candidate hn waits
  obtain ⟨hello, hhello⟩ := Option.isSome_iff_exists.mp hgreet
  have hrun : b.acknowledgeHostControlDelivery C n.transportId g.deliveryId =
      (⟨true, ((b.read.activate C n hello none).flushDeferredHostAuthExpiringWarning C n.serial).1, none⟩,
        ((b.read.activate C n hello none).flushDeferredHostAuthExpiringWarning C n.serial).2) := by
    unfold Broker.acknowledgeHostControlDelivery
    rw [hat]
    dsimp only
    rw [hhello, hg]
    dsimp only
    rw [if_neg (by simp [waits, hlook, Option.isSome_iff_ne_none.mp hconn])]
    rcases isCarrierAuthorizationActive_spec (C := C) h n with ⟨b₁, heq, rfl⟩ | ⟨b₁, heq, _⟩
    · rw [heq]
      dsimp only
      have hrev : ((b.read.recordOf n.authContext.hostId).map DirectoryRecord.revision).getD 0 = g.baseDirectoryRevision :=
        base
      rw [if_neg (by simp), if_neg (by simp [hrev, free]), free]
      rfl
    · rw [heq] at authorized
      cases authorized
  have hop := (Op.controlDelivered n.transportId g.deliveryId).walk (C := C) h
  have hafter := hop.sound h
  obtain ⟨n', hn', hf⟩ := hop.follows h hn (by rw [waits]; simp)
  change Sound [] (b.acknowledgeHostControlDelivery C n.transportId g.deliveryId).2 at hafter
  change (b.acknowledgeHostControlDelivery C n.transportId g.deliveryId).2.carrierOf n.serial = some n' at hn'
  have howner : (b.acknowledgeHostControlDelivery C n.transportId g.deliveryId).2.active.lookup n.authContext.hostId =
      some n.serial := by
    rw [hrun, (Kept.flushHostWarning C n.serial _).active, (activate_owner C n hello none b.read).1, List.lookup_cons,
      beq_self_eq_true]
  have hs := serial_of_carrierOf hn'
  have hactive := (hafter.host_of_active hn' howner).2.1
  refine ⟨by rw [hrun], ⟨n', ?_, hs, hactive⟩, ?_⟩
  · unfold Broker.activeAt
    rw [howner, Option.bind_some, hn']
  · obtain ⟨hon, hnamed⟩ := hafter.owned.directory n.authContext.hostId
    have hrecord := hon.mpr (Option.isSome_iff_exists.mpr ⟨_, howner⟩)
    obtain ⟨f, hf', hfon⟩ := (Option.any_eq_true _ _).mp hrecord
    obtain ⟨d, hd, rfl⟩ := Option.map_eq_some_iff.mp hf'
    exact ⟨d, hd, hfon, (hnamed d.face n.serial n'.face hf' howner (ownership_carrier hn')).trans hf.connector⟩

end

end

/-! ## The loss of the owner -/

/-- **A pending registration survives the loss of its owner exactly when the owner disconnects**, and the candidate's own
authorization holds.  From a reachable state an operation costs the owner `p` its host, `more` leave the directory record of
the host as it is, and the candidate waits throughout. -/
theorem pending_registration_survives_iff (C : Config) (ready : List Extension) (replies : Nat → Reply) (ops : List Op)
    (op : Op) (more : List Op) {p n n₂ : Carrier} {g : Registration}
    (candidate : (run C ops (Broker.start ready replies)).carrierOf n.serial = some n) (waits : n.status = .registering)
    (pending : n.registration = some g) (replaces : g.previousTransportId = some p.transportId)
    (owner : (run C ops (Broker.start ready replies)).carrierAt p.transportId = some p) (owns : p.status = .active)
    (same : p.authContext.hostId = n.authContext.hostId)
    (lost : ∀ p', (run C (ops ++ [op]) (Broker.start ready replies)).carrierOf p.serial = some p' → p'.status ≠ .active)
    (still : (run C (ops ++ op :: more) (Broker.start ready replies)).revisionOf n.authContext.hostId =
      (run C (ops ++ [op]) (Broker.start ready replies)).revisionOf n.authContext.hostId)
    (candidate₂ : (run C (ops ++ op :: more) (Broker.start ready replies)).carrierOf n.serial = some n₂)
    (waits₂ : n₂.status = .registering) :
    Commits C (run C (ops ++ op :: more) (Broker.start ready replies)) n₂ g.deliveryId ↔
      op = .disconnect p.transportId ∧
        ((run C (ops ++ op :: more) (Broker.start ready replies)).isCarrierAuthorizationActive C n₂).1 = true := by
  have h := run_sound C ops (Sound.start ready replies)
  rw [run_append] at lost still candidate₂ ⊢
  rw [run_append] at still
  generalize run C ops (Broker.start ready replies) = b at *
  change (run C more (op.run C b)).revisionOf _ = (op.run C b).revisionOf _ at still
  change (run C more (op.run C b)).carrierOf _ = some n₂ at candidate₂
  change ∀ p', (op.run C b).carrierOf p.serial = some p' → _ at lost
  change Commits C (run C more (op.run C b)) n₂ g.deliveryId ↔ _ ∧
    ((run C more (op.run C b)).isCarrierAuthorizationActive C n₂).1 = true
  have h₁ := (op.walk (C := C) h).sound h
  have h₂ := run_sound C more h₁
  have howner : b.active.lookup n.authContext.hostId = some p.serial := by
    rw [← same]
    exact h.owned.activeOf p.serial p.face (ownership_carrier (h.carrierAt_iff.mp owner).1) owns List.not_mem_nil
  have hlost := op.revision_lost (C := C) h howner lost
  obtain ⟨n₁, hn₁, hs₁, hst₁, hh₁, ht₁, hk₁, hw₁⟩ := op.waiting (C := C) h candidate (by rw [waits]; simp)
  obtain ⟨hr₁, hg₂, hs₂, hh₂, _⟩ := run_waiting (C := C) more h₁ (hs₁ ▸ hn₁) hst₁ (by rw [hh₁]; exact still)
    (hs₁ ▸ candidate₂) waits₂
  have hn₂ : (run C more (op.run C b)).carrierOf n₂.serial = some n₂ := by rw [hs₂, hs₁]; exact candidate₂
  by_cases hop : op = .disconnect p.transportId
  · -- the candidate is based on the directory that the owner left
    subst hop
    obtain ⟨n', hn', _, hg'⟩ := disconnect_rebases (C := C) h owner owns candidate waits pending replaces same
    obtain rfl := Option.some.inj (hn₁.symm.trans hn')
    rw [hg'] at hg₂
    constructor
    · intro hc
      refine ⟨rfl, ?_⟩
      by_contra hno
      have hrefused := acknowledge_refused h₂ hn₂ waits₂ hg₂ (.inl (by simpa using hno))
      exact absurd hc.accepted (by rw [hrefused]; simp)
    · rintro ⟨_, hauth⟩
      have hcommit := acknowledge_commits (C := C) h₂ hn₂ waits₂ hg₂ hauth (by rw [hh₂, hh₁]; exact still) rfl
      exact hcommit
  · -- the candidate is still based on the directory that the owner was in
    have hkept : ¬ op.Dethrones b n.authContext.hostId := by
      rintro ⟨t, c, rfl, hat, _, _, hc⟩
      have hser : c.serial = p.serial := Option.some.inj (hc.symm.trans howner)
      have hcp : c = p := Option.some.inj
        ((h.carrierAt_iff.mp hat).1.symm.trans (hser ▸ (h.carrierAt_iff.mp owner).1))
      exact hop (by rw [← hcp, (h.carrierAt_iff.mp hat).2.2])
    have hg₁ := (hw₁ hr₁).2.resolve_right hkept
    have hbase := (h.owned.base n.serial n.face g (ownership_carrier candidate) waits List.not_mem_nil pending).1
    rw [ownership_revision] at hbase
    have hrefused := acknowledge_refused (C := C) h₂ hn₂ waits₂ (hg₂.trans (hg₁.trans pending)) (.inr (by
      rw [hh₂, hh₁]
      change g.baseDirectoryRevision ≤ b.revisionOf n.authContext.hostId at hbase
      omega))
    exact ⟨fun hc => absurd hc.accepted (by rw [hrefused]; simp), fun hc => absurd hc.1 hop⟩

/-! ## A newer connector of the host, and the end of the older one -/

/-- A second process of the host says hello on transport 2; its `host.registered` is delivery 5. -/
def sampleCandidate : List Op :=
  sampleRegister ++
    [.attach 2 sampleHost 12, .receive 2 (some (.hello { sampleHello with hostInstanceId := 102 }))]

/-- The candidate waits for the owner of transport 1, whom `op` costs the host. -/
def candidateWaits (op : Op) : Bool :=
  let b := run sampleConfig sampleCandidate sampleStart
  let b₁ := run sampleConfig (sampleCandidate ++ [op]) sampleStart
  (b.carrierOf 3).any fun n => (b.carrierAt 1).any fun p => (b₁.carrierOf 3).any fun n₂ =>
    n.registration == some ⟨5, 1, some 1⟩ && n.status = .registering && p.status = .active &&
      p.authContext.hostId = n.authContext.hostId && (b₁.carrierOf p.serial).all (fun x => x.status ≠ .active) &&
      n₂.status = .registering && (b₁.isCarrierAuthorizationActive sampleConfig n₂).1

theorem candidateWaits_spec {op : Op} (hw : candidateWaits op = true) : ∃ p n n₂, n.serial = 3 ∧
    (run sampleConfig sampleCandidate sampleStart).carrierOf n.serial = some n ∧ n.status = .registering ∧
      n.registration = some ⟨5, 1, some p.transportId⟩ ∧
      (run sampleConfig sampleCandidate sampleStart).carrierAt p.transportId = some p ∧ p.status = .active ∧
      p.transportId = 1 ∧ p.authContext.hostId = n.authContext.hostId ∧
      (∀ p', (run sampleConfig (sampleCandidate ++ [op]) sampleStart).carrierOf p.serial = some p' → p'.status ≠ .active) ∧
      (run sampleConfig (sampleCandidate ++ [op]) sampleStart).carrierOf n.serial = some n₂ ∧ n₂.status = .registering ∧
      ((run sampleConfig (sampleCandidate ++ [op]) sampleStart).isCarrierAuthorizationActive sampleConfig n₂).1 = true := by
  unfold candidateWaits at hw
  obtain ⟨n, hn, hw⟩ := (Option.any_eq_true _ _).mp hw
  obtain ⟨p, hp, hw⟩ := (Option.any_eq_true _ _).mp hw
  obtain ⟨n₂, hn₂, hw⟩ := (Option.any_eq_true _ _).mp hw
  simp only [Bool.and_eq_true, decide_eq_true_eq, beq_iff_eq, Option.all_eq_true] at hw
  obtain ⟨⟨⟨⟨⟨⟨hg, hst⟩, hact⟩, hhost⟩, hlost⟩, hst₂⟩, hauth⟩ := hw
  have hs := serial_of_carrierOf hn
  have ht := (carrierAt_spec hp).2.2
  exact ⟨p, n, n₂, hs, by rw [hs]; exact hn, hst, by rw [ht]; exact hg, by rw [ht]; exact hp, hact, ht, hhost,
    fun p' hp' => hlost p' hp', by rw [hs]; exact hn₂, hst₂, hauth⟩

/-- The owner disconnects: the candidate is committed. -/
theorem pending_registration_survives_disconnect : ∃ n₂, n₂.serial = 3 ∧
    Commits sampleConfig (run sampleConfig (sampleCandidate ++ [.disconnect 1]) sampleStart) n₂ 5 := by
  have hw : candidateWaits (.disconnect 1) = true := by decide +kernel
  obtain ⟨p, n, n₂, hs, hn, hst, hg, hp, hact, ht, hhost, hlost, hn₂, hst₂, hauth⟩ := candidateWaits_spec hw
  exact ⟨n₂, (serial_of_carrierOf hn₂).trans hs, (pending_registration_survives_iff sampleConfig [] (fun _ => ⟨5, false⟩)
    sampleCandidate (.disconnect 1) [] hn hst hg rfl hp hact hhost hlost rfl hn₂ hst₂).mpr ⟨by rw [ht], hauth⟩⟩

/-- **The owner sends a frame that does not decode: the candidate is turned down**, although nothing is wrong with it. -/
theorem pending_registration_lost_by_violation :
    ¬ ∀ (C : Config) (ready : List Extension) (replies : Nat → Reply) (ops : List Op) (op : Op) (more : List Op)
        (p n n₂ : Carrier) (g : Registration),
      (run C ops (Broker.start ready replies)).carrierOf n.serial = some n → n.status = .registering →
      n.registration = some g → g.previousTransportId = some p.transportId →
      (run C ops (Broker.start ready replies)).carrierAt p.transportId = some p → p.status = .active →
      p.authContext.hostId = n.authContext.hostId →
      (∀ p', (run C (ops ++ [op]) (Broker.start ready replies)).carrierOf p.serial = some p' → p'.status ≠ .active) →
      (run C (ops ++ op :: more) (Broker.start ready replies)).revisionOf n.authContext.hostId =
        (run C (ops ++ [op]) (Broker.start ready replies)).revisionOf n.authContext.hostId →
      (run C (ops ++ op :: more) (Broker.start ready replies)).carrierOf n.serial = some n₂ → n₂.status = .registering →
      ((run C (ops ++ op :: more) (Broker.start ready replies)).isCarrierAuthorizationActive C n₂).1 = true →
      Commits C (run C (ops ++ op :: more) (Broker.start ready replies)) n₂ g.deliveryId := by
  intro hclaim
  have hw : candidateWaits (.receive 1 none) = true := by decide +kernel
  obtain ⟨p, n, n₂, hs, hn, hst, hg, hp, hact, _, hhost, hlost, hn₂, hst₂, hauth⟩ := candidateWaits_spec hw
  have hcommits := hclaim sampleConfig [] (fun _ => ⟨5, false⟩) sampleCandidate (.receive 1 none) [] p n n₂ _ hn hst hg rfl hp
    hact hhost hlost rfl hn₂ hst₂ hauth
  have hrefused : ((run sampleConfig (sampleCandidate ++ [.receive 1 none]) sampleStart).carrierOf 3).all (fun n₂ =>
      !((run sampleConfig (sampleCandidate ++ [.receive 1 none]) sampleStart).acknowledgeHostControlDelivery sampleConfig
        n₂.transportId 5).1.accepted) = true := by decide +kernel
  have hno := (Option.all_eq_true _ _).mp hrefused n₂ (hs ▸ hn₂)
  have hyes : ((run sampleConfig (sampleCandidate ++ [.receive 1 none]) sampleStart).acknowledgeHostControlDelivery
    sampleConfig n₂.transportId 5).1.accepted = true := hcommits.accepted
  rw [hyes] at hno
  cases hno

end Relay
end TmuxWorktree

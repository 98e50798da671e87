import TmuxWorktree.Relay.Books
import TmuxWorktree.Relay.Lossless
import Mathlib.Algebra.Order.Group.Int
/-!
# Ledger — the counters of the broker and what they count

Every byte and frame that is queued or in flight is on the counters of its carrier and of its route, and nothing else is.
`Balanced` says so of all carriers, routes and clients at once; each move is a posting on one carrier, a change of what one
client holds, or neither.
-/
namespace TmuxWorktree
namespace Relay

/-! ## What a client holds -/

/-- **What is on the way to a client**, queued or in flight. -/
def Client.load (k : Client) : List QueuedClientFrame := k.queue ++ k.inFlight.map InFlightClientFrame.toQueuedClientFrame

def byteSum (entries : List QueuedClientFrame) : Int := (entries.map fun e => (e.bytes.byteLength : Int)).sum

def charge (entries : List QueuedClientFrame) : Int := byteSum (entries.filter QueuedClientFrame.carrierAccounted)

/-- What is on the way to the clients of some routes, at the charge of a carrier. -/
def Broker.credit (b : Broker) (ids : List Nat) : Int := (b.clients.map fun k => if k.routeId ∈ ids then charge k.load else 0).sum

/-! ## The invariant -/

/-- A carrier is within its limits, and data leaves the control reserve free. -/
structure Carrier.Within (c : Carrier) : Prop where
  total : c.bufferedBytes ≤ carrierBufferedBytes
  data : wireSum c.data + c.hostToClientBufferedBytes ≤ (carrierBufferedBytes : Int) - carrierControlReserveBytes

/-- A route is within its limits, both ways. -/
structure Route.Within (r : Route) : Prop where
  sentFrames : r.clientToHostFrames ≤ maxQueuedRouteFrames
  sentBytes : r.clientToHostBufferedBytes ≤ routeBufferedBytesPerDirection
  dueFrames : r.hostToClientFrames ≤ maxQueuedRouteFrames
  dueBytes : r.hostToClientBufferedBytes ≤ routeBufferedBytesPerDirection

def Route.outgoing (r : Route) : Int × Int := (r.clientToHostFrames, r.clientToHostBufferedBytes)

def Route.incoming (r : Route) : Int × Int := (r.hostToClientFrames, r.hostToClientBufferedBytes)

/-- **The books of one carrier**: its own, and those of the routes on it. -/
structure AtCarrier (b : Broker) (c : Carrier) : Prop where
  tidy : c.Tidy
  deliveries : ∀ e ∈ c.inFlight, e.deliveryId < b.fresh
  credit : c.hostToClientBufferedBytes = b.credit c.routeIds
  within : c.Within
  named : ∀ e ∈ c.held, ∀ id, e.route = some id → id < b.fresh ∧ ∀ r, b.routeOf id = some r → id ∈ c.routeIds
  outgoing : ∀ id r, id ∈ c.routeIds → b.routeOf id = some r → r.outgoing = (((c.load id).length : Int), rawSum (c.load id))

/-- The books of one route, on the side of its client. -/
structure AtRoute (b : Broker) (r : Route) : Prop where
  incoming : ∀ k, b.clientAt r.connectionId = some k → r.incoming = ((k.load.length : Int), byteSum k.load)
  within : r.Within

/-- What a client holds is for its route, and its deliveries are told apart. -/
structure AtClient (fresh : Nat) (k : Client) : Prop where
  route : ∀ e ∈ k.load, e.route = k.routeId
  once : (k.inFlight.map InFlightClientFrame.deliveryId).Nodup
  deliveries : ∀ e ∈ k.inFlight, e.deliveryId < fresh

/-- **The counters are what they count.** -/
structure Balanced (b : Broker) : Prop where
  carriers : ∀ s c, b.carrierOf s = some c → AtCarrier b c
  routes : ∀ id r, b.routeOf id = some r → AtRoute b r
  clients : ∀ k ∈ b.clients, AtClient b.fresh k

/-! ## Sums and releases -/

section
variable {l l' : List QueuedClientFrame} {e : QueuedClientFrame}

@[simp] theorem byteSum_nil : byteSum [] = 0 := rfl

@[simp] theorem byteSum_cons : byteSum (e :: l) = e.bytes.byteLength + byteSum l := by simp [byteSum]

@[simp] theorem byteSum_append : byteSum (l ++ l') = byteSum l + byteSum l' := by simp [byteSum]

theorem byteSum_perm (h : l.Perm l') : byteSum l = byteSum l' := (h.map _).sum_eq

theorem byteSum_nonneg (l : List QueuedClientFrame) : 0 ≤ byteSum l := by
  induction l with
  | nil => exact le_rfl
  | cons e l ih =>
    rw [byteSum_cons]
    omega

theorem charge_nonneg (l : List QueuedClientFrame) : 0 ≤ charge l := byteSum_nonneg _

@[simp] theorem charge_append : charge (l ++ l') = charge l + charge l' := by simp [charge]

theorem charge_perm (h : l.Perm l') : charge l = charge l' := byteSum_perm (h.filter _)

/-- **A release of what is on a counter is not clamped.** -/
theorem release_eq {amounts : List Nat} {total : Int} (h : (amounts.map Int.ofNat).sum ≤ total) :
    release total amounts = total - (amounts.map Int.ofNat).sum := by
  induction amounts generalizing total with
  | nil => simp [release]
  | cons n amounts ih =>
    have hnonneg : 0 ≤ (amounts.map Int.ofNat).sum := List.sum_nonneg fun x hx => by
      obtain ⟨y, _, rfl⟩ := List.mem_map.mp hx
      exact Int.natCast_nonneg y
    rw [List.map_cons, List.sum_cons] at h ⊢
    have hmax : max 0 (total - n) = total - n := by
      have : (Int.ofNat n : Int) = n := rfl
      omega
    show release (max 0 (total - n)) amounts = _
    rw [hmax, ih (by have : (Int.ofNat n : Int) = n := rfl; omega)]
    have : (Int.ofNat n : Int) = n := rfl
    omega

theorem release_bytes {total : Int} (h : byteSum l ≤ total) :
    release total (l.map fun e => e.bytes.byteLength) = total - byteSum l := by
  have hsum : ((l.map fun e => e.bytes.byteLength).map Int.ofNat).sum = byteSum l := by
    rw [List.map_map]
    rfl
  rw [release_eq (by rw [hsum]; exact h), hsum]

theorem release_frames {total : Int} (h : (l.length : Int) ≤ total) :
    release total (l.map fun _ => 1) = total - l.length := by
  have hsum : ((l.map fun _ => 1).map Int.ofNat).sum = (l.length : Int) := by
    rw [List.map_map]
    simp [Function.comp_def]
  rw [release_eq (by rw [hsum]; exact h), hsum]

end

/-! ## What does not concern the books -/

def Carrier.books (c : Carrier) : Carrier :=
  { c.bare with
    attached := false, transportId := 0, connectionIncarnation := 0, status := .pending, connectorId := none, hello := none
    registration := none }

def Route.books (r : Route) : Nat × (Int × Int) × (Int × Int) := (r.connectionId, r.outgoing, r.incoming)

def Client.books (k : Client) : Nat × List QueuedClientFrame × List InFlightClientFrame := (k.routeId, k.queue, k.inFlight)

/-- **No counter and no queue has changed.** -/
structure Settled (b b' : Broker) : Prop where
  carriers : Looks Carrier.books b.carrierOf b'.carrierOf
  routes : Looks Route.books b.routeOf b'.routeOf
  clients : b'.clients.map (fun k => (k.connectionId, k.books)) = b.clients.map fun k => (k.connectionId, k.books)
  fresh : b.fresh ≤ b'.fresh

section
variable {b b' b'' : Broker} {c c' : Carrier} {r r' : Route} {k : Client}

theorem Settled.refl (b : Broker) : Settled b b := ⟨.refl _, .refl _, rfl, Nat.le_refl _⟩

theorem Settled.trans (h : Settled b b') (h' : Settled b' b'') : Settled b b'' :=
  ⟨h.carriers.trans h'.carriers, h.routes.trans h'.routes, h'.clients.trans h.clients, h.fresh.trans h'.fresh⟩

theorem Settled.of_quiet (h : Quiet b b') : Settled b b' := by
  refine ⟨.of_bare h.carriers (fun _ => rfl) fun _ => rfl, .of_bare h.routes (fun _ => rfl) fun _ => rfl, ?_, h.fresh⟩
  have hk : ∀ l : List Client, (l.map Client.bare).map (fun k => (k.connectionId, k.books)) =
      l.map fun k => (k.connectionId, k.books) := fun l => by rw [List.map_map]; rfl
  rw [← hk, h.clients, hk]

theorem Settled.setCarrier {f : Carrier → Carrier} (b : Broker) (s : Nat)
    (hf : ∀ c, (f c).serial = c.serial ∧ (f c).books = c.books) : Settled b (b.setCarrier s f) :=
  { Settled.refl b with carriers := .update (fun c => (hf c).1) fun c _ => (hf c).2 }

theorem Settled.setRoute {g : Route → Route} (b : Broker) (id : Nat)
    (hg : ∀ r, (g r).routeId = r.routeId ∧ (g r).books = r.books) : Settled b (b.setRoute id g) :=
  { Settled.refl b with routes := .update (fun r => (hg r).1) fun r _ => (hg r).2 }

theorem Settled.emit (b : Broker) (e : Event) : Settled b (b.emit e) := { Settled.refl b with }

theorem Settled.named (b : Broker) : Settled b b.named := { Settled.refl b with fresh := Nat.le_succ _ }

theorem Settled.noteRequest (id : Nat) (f : PublicFrame) (b : Broker) : Settled b (b.noteRequest id f) := by
  obtain ⟨g, heq, hg⟩ := noteRequest_eq id f b
  rw [heq]
  exact .setRoute b _ fun r => ⟨by rw [hg r], by rw [hg r]; rfl⟩

theorem credit_of_clients (h : b'.clients.map (fun k => (k.connectionId, k.books)) = b.clients.map fun k => (k.connectionId, k.books))
    (ids : List Nat) : b'.credit ids = b.credit ids := by
  have hof : ∀ b : Broker, b.credit ids = ((b.clients.map fun k => (k.connectionId, k.books)).map fun x =>
      if x.2.1 ∈ ids then charge (x.2.2.1 ++ x.2.2.2.map InFlightClientFrame.toQueuedClientFrame) else 0).sum := by
    intro b
    rw [List.map_map]
    rfl
  rw [hof, hof, h]

theorem AtCarrier.keep (h : AtCarrier b c) (heq : c'.books = c.books) (hf : b.fresh ≤ b'.fresh)
    (hcredit : b'.credit c.routeIds = b.credit c.routeIds)
    (hr : ∀ id r', b'.routeOf id = some r' → ∃ r, b.routeOf id = some r ∧ (id ∈ c.routeIds → r.outgoing = r'.outgoing)) :
    AtCarrier b' c' := by
  have hbooks : AtCarrier b' c.books := by
    refine ⟨⟨h.tidy.queued, h.tidy.flying, h.tidy.order, h.tidy.once, h.tidy.filled, h.tidy.tagged, h.tidy.control,
      h.tidy.deliveries⟩, fun e he => Nat.lt_of_lt_of_le (h.deliveries e he) hf, h.credit.trans hcredit.symm,
      ⟨h.within.total, h.within.data⟩, fun e he id hid => ?_, fun id r' hid hr' => ?_⟩
    · obtain ⟨hlt, hin⟩ := h.named e he id hid
      refine ⟨Nat.lt_of_lt_of_le hlt hf, fun r' hr' => ?_⟩
      obtain ⟨r, hr, _⟩ := hr id r' hr'
      exact hin r hr
    · obtain ⟨r, hr, ho⟩ := hr id r' hr'
      rw [← ho hid]
      exact h.outgoing id r hid hr
  rw [← heq] at hbooks
  exact ⟨⟨hbooks.tidy.queued, hbooks.tidy.flying, hbooks.tidy.order, hbooks.tidy.once, hbooks.tidy.filled,
    hbooks.tidy.tagged, hbooks.tidy.control, hbooks.tidy.deliveries⟩, hbooks.deliveries, hbooks.credit,
    ⟨hbooks.within.total, hbooks.within.data⟩, hbooks.named, hbooks.outgoing⟩

theorem Route.Within.of_counters (h : r.Within) (ho : r'.outgoing = r.outgoing) (hi : r'.incoming = r.incoming) : r'.Within := by
  simp only [Route.outgoing, Route.incoming, Prod.mk.injEq] at ho hi
  exact ⟨ho.1 ▸ h.sentFrames, ho.2 ▸ h.sentBytes, hi.1 ▸ h.dueFrames, hi.2 ▸ h.dueBytes⟩

/-- **A change that does not concern the books keeps them.** -/
theorem Balanced.settled (h : Balanced b) (hs : Settled b b') : Balanced b' := by
  refine ⟨fun s c' hc' => ?_, fun id r' hr' => ?_, fun k' hk' => ?_⟩
  · obtain ⟨c, hc, heq⟩ := hs.carriers.get hc'
    refine (h.carriers s c hc).keep heq.symm hs.fresh (credit_of_clients hs.clients _) fun id r' hr' => ?_
    obtain ⟨r, hr, heq⟩ := hs.routes.get hr'
    exact ⟨r, hr, fun _ => congrArg (fun x => x.2.1) heq⟩
  · obtain ⟨r, hr, heq⟩ := hs.routes.get hr'
    have hroute := h.routes id r hr
    simp only [Route.books, Prod.mk.injEq] at heq
    obtain ⟨hk, ho, hi⟩ := heq
    refine ⟨fun k' hk' => ?_, hroute.within.of_counters ho.symm hi.symm⟩
    have hface := Kept.find_face hs.clients r'.connectionId
    rw [show Keyed.find Client.connectionId r'.connectionId b'.clients = some k' from hk', Option.map_some] at hface
    obtain ⟨k, hk₀, hbooks⟩ := Option.map_eq_some_iff.mp hface.symm
    simp only [Client.books, Prod.mk.injEq] at hbooks
    rw [← hi, hroute.incoming k (by rw [hk]; exact hk₀)]
    unfold Client.load
    rw [hbooks.2.1, hbooks.2.2]
  · have hmem : (k'.connectionId, k'.books) ∈ b.clients.map fun k => (k.connectionId, k.books) :=
      hs.clients ▸ List.mem_map_of_mem hk'
    obtain ⟨k, hk, heq⟩ := List.mem_map.mp hmem
    simp only [Client.books, Prod.mk.injEq] at heq
    obtain ⟨_, h1, h2, h3⟩ := heq
    have hclient := h.clients k hk
    refine ⟨?_, h3 ▸ hclient.once, fun e he => Nat.lt_of_lt_of_le (hclient.deliveries e (h3 ▸ he)) hs.fresh⟩
    unfold Client.load at *
    rw [← h1, ← h2, ← h3]
    exact hclient.route

/-! ## Postings -/

variable {D : List Nat} {gone come : List QueuedCarrierFrame} {e : QueuedCarrierFrame} {id : Nat}

theorem Sound.one_carrier (hs : Sound D b) {s s' : Nat} (hc : b.carrierOf s = some c) (hc' : b.carrierOf s' = some c')
    (h : id ∈ c.routeIds) (h' : id ∈ c'.routeIds) : s = s' := by
  obtain ⟨ha, r, hr, ht⟩ := hs.owned.listed s c.face id (ownership_carrier hc) h
  obtain ⟨ha', r', hr', ht'⟩ := hs.owned.listed s' c'.face id (ownership_carrier hc') h'
  obtain rfl := Option.some.inj (hr.symm.trans hr')
  exact (hs.same_carrier hc hc' ha ha' (ht.symm.trans ht')).1

/-- **A posting on the carrier `c`**, and on the routes that its entries carry data of. -/
structure Posted (b b' : Broker) (c c' : Carrier) (gone come : List QueuedCarrierFrame) : Prop where
  posts : c.Posts gone come c'
  carriers : ∀ s x, b'.carrierOf s = some x → (s ≠ c.serial ∧ b.carrierOf s = some x) ∨ x = c'
  clients : b'.clients = b.clients
  fresh : b.fresh ≤ b'.fresh
  routes : ∀ id r', b'.routeOf id = some r' → ∃ r, b.routeOf id = some r ∧ r'.connectionId = r.connectionId ∧
    r'.incoming = r.incoming ∧
    r'.clientToHostFrames + (gone.filter (QueuedCarrierFrame.carries id)).length =
      r.clientToHostFrames + (come.filter (QueuedCarrierFrame.carries id)).length ∧
    r'.clientToHostBufferedBytes + rawSum (gone.filter (QueuedCarrierFrame.carries id)) =
      r.clientToHostBufferedBytes + rawSum (come.filter (QueuedCarrierFrame.carries id))
  deliveries : ∀ e ∈ c'.inFlight, e.deliveryId < b'.fresh

theorem QueuedCarrierFrame.route_of_carries {e : QueuedCarrierFrame} (h : e.carries id = true) :
    e.route = some id ∧ e.routeSeq.isSome = true := by
  unfold QueuedCarrierFrame.carries at h
  rw [Bool.and_eq_true, beq_iff_eq] at h
  exact h

theorem filter_carries_nil {l : List QueuedCarrierFrame} (h : ∀ e ∈ l, e.routeSeq = none ∨ e.route ≠ some id) :
    l.filter (QueuedCarrierFrame.carries id) = [] := by
  rw [List.filter_eq_nil_iff]
  intro e he hc
  obtain ⟨hr, hd⟩ := QueuedCarrierFrame.route_of_carries hc
  rcases h e he with hno | hno
  · rw [hno] at hd
    cases hd
  · exact hno hr

/-- **A posting keeps the books balanced**, if what it brings is within the limits. -/
theorem Balanced.post (h : Balanced b) (hs : Sound D b) (hc : b.carrierOf c.serial = some c) (p : Posted b b' c c' gone come)
    (within : c'.Within) (room : ∀ id r', b'.routeOf id = some r' → r'.Within)
    (named : ∀ e ∈ come, ∀ id, e.route = some id → id < b'.fresh ∧ ∀ r, b.routeOf id = some r → id ∈ c.routeIds) :
    Balanced b' := by
  have hat := h.carriers _ c hc
  have hnamed : ∀ e ∈ come ++ c.held, ∀ id, e.route = some id → id < b'.fresh ∧ ∀ r, b.routeOf id = some r → id ∈ c.routeIds := by
    intro e he id hid
    rcases List.mem_append.mp he with he | he
    · exact named e he id hid
    · exact (hat.named e he id hid).imp_left fun hlt => Nat.lt_of_lt_of_le hlt p.fresh
  have hcredit : ∀ ids, b'.credit ids = b.credit ids := fun ids => by
    unfold Broker.credit
    rw [p.clients]
  refine ⟨fun s x hx => ?_, fun id r' hr' => ?_, fun k hk => ?_⟩
  · rcases p.carriers s x hx with ⟨hne, hx⟩ | rfl
    · refine (h.carriers s x hx).keep rfl p.fresh (hcredit _) fun id r' hr' => ?_
      obtain ⟨r, hr, _, _, hframes, hbytes⟩ := p.routes id r' hr'
      refine ⟨r, hr, fun hid => ?_⟩
      -- the entries that come and go are of routes on the other carrier
      have hnone : ∀ l : List QueuedCarrierFrame, (∀ e ∈ l, e ∈ come ++ c.held) → l.filter (QueuedCarrierFrame.carries id) = [] :=
        fun l hl => filter_carries_nil fun e he => .inr fun heid =>
          hne (hs.one_carrier hx hc hid ((hnamed e (hl e he) id heid).2 r hr))
      rw [hnone gone fun e he => p.posts.held.subset (List.mem_append_left _ he),
        hnone come fun e he => List.mem_append_left _ he] at hframes hbytes
      rw [List.length_nil] at hframes
      rw [rawSum_nil] at hbytes
      simp only [Route.outgoing, Prod.mk.injEq]
      constructor
      · omega
      · omega
    · refine ⟨p.posts.tidy, p.deliveries, ?_, within, fun e he id hid => ?_, fun id r' hid hr' => ?_⟩
      · rw [p.posts.credit, p.posts.routeIds, hcredit]
        exact hat.credit
      · rw [p.posts.routeIds]
        obtain ⟨hlt, hin⟩ := hnamed e (p.posts.held.subset (List.mem_append_right _ he)) id hid
        refine ⟨hlt, fun r' hr' => ?_⟩
        obtain ⟨r, hr, _⟩ := p.routes id r' hr'
        exact hin r hr
      · obtain ⟨r, hr, _, _, hframes, hbytes⟩ := p.routes id r' hr'
        have hout := hat.outgoing id r (p.posts.routeIds ▸ hid) hr
        have hload := p.posts.load id
        have hlen := hload.length_eq
        have hraw := rawSum_perm hload
        rw [List.length_append, List.length_append] at hlen
        rw [rawSum_append, rawSum_append] at hraw
        simp only [Route.outgoing, Prod.mk.injEq] at hout ⊢
        constructor
        · omega
        · omega
  · obtain ⟨r, hr, hk, hi, _⟩ := p.routes id r' hr'
    refine ⟨fun k hclient => ?_, room id r' hr'⟩
    rw [hi]
    refine (h.routes id r hr).incoming k ?_
    rw [← hk]
    unfold Broker.clientAt at hclient ⊢
    rw [← p.clients]
    exact hclient
  · have hclient := h.clients k (p.clients ▸ hk)
    exact ⟨hclient.route, hclient.once, fun e he => Nat.lt_of_lt_of_le (hclient.deliveries e he) p.fresh⟩

theorem Posted.room (p : Posted b b' c c' gone []) (h : Balanced b) : ∀ id r', b'.routeOf id = some r' → r'.Within := by
  intro id r' hr'
  obtain ⟨r, hr, _, hi, hframes, hbytes⟩ := p.routes id r' hr'
  have hw := (h.routes id r hr).within
  have hnonneg := rawSum_nonneg (gone.filter (QueuedCarrierFrame.carries id))
  simp only [Route.incoming, Prod.mk.injEq] at hi
  simp only [List.filter_nil, List.length_nil, rawSum_nil] at hframes hbytes
  refine ⟨?_, ?_, hi.1 ▸ hw.dueFrames, hi.2 ▸ hw.dueBytes⟩
  · have := hw.sentFrames
    omega
  · have := hw.sentBytes
    omega

theorem Carrier.Posts.lighter (p : c.Posts gone [] c') (ht : c.Tidy) (hw : c.Within) : c'.Within := by
  have hsum := p.bufferedBytes ht
  have hdata := wireSum_perm p.data
  have hgone := wireSum_nonneg gone
  have hgone' := wireSum_nonneg (gone.filter fun e => e.routeSeq.isSome)
  have htotal := hw.total
  have hd := hw.data
  rw [wireSum_append, List.filter_nil, List.nil_append] at hdata
  rw [wireSum_nil] at hsum
  constructor
  · omega
  · rw [p.credit]
    omega

theorem Carrier.Posts.within_control (p : c.Posts [] [e] c') (ht : c.Tidy) (hw : c.Within) (he : e.routeSeq = none)
    (room : c.HasRoom e.wireBytes) : c'.Within := by
  have hsum := p.bufferedBytes ht
  have hdata := wireSum_perm p.data
  have hd := hw.data
  unfold HasRoom at room
  simp only [List.filter_nil, List.nil_append, List.filter_cons, he, Option.isSome_none, Bool.false_eq_true, if_false] at hdata
  simp only [wireSum_nil, wireSum_cons, add_zero] at hsum
  constructor
  · omega
  · rw [p.credit, hdata]
    exact hd

theorem Carrier.Posts.within_data (p : c.Posts [] [e] c') (ht : c.Tidy) (room : c.DataRoom e.wireBytes) : c'.Within := by
  have hsum := p.bufferedBytes ht
  have hle : wireSum c'.data ≤ wireSum c'.held := wireSum_filter_le _ _
  have hbuffered := p.tidy.bufferedBytes
  unfold DataRoom at room
  simp only [wireSum_nil, wireSum_cons, add_zero] at hsum
  have hreserve : (0 : Int) ≤ carrierControlReserveBytes := Int.natCast_nonneg _
  constructor
  · omega
  · omega

theorem Balanced.post_gone (h : Balanced b) (hs : Sound D b) (hc : b.carrierOf c.serial = some c) (p : Posted b b' c c' gone []) :
    Balanced b' :=
  h.post hs hc p (p.posts.lighter (h.carriers _ c hc).tidy (h.carriers _ c hc).within) (p.room h) fun _ he => nomatch he

theorem carriers_setCarrier {f : Carrier → Carrier} (hc : b.carrierOf c.serial = some c) (hf : ∀ c, (f c).serial = c.serial) :
    ∀ s x, (b.setCarrier c.serial f).carrierOf s = some x → (s ≠ c.serial ∧ b.carrierOf s = some x) ∨ x = f c := by
  intro s x hx
  rcases carrierOf_setCarrier_cases hx hf with ⟨hne, hx⟩ | ⟨rfl, c₀, hc₀, rfl⟩
  · exact .inl ⟨hne, hx⟩
  · exact .inr (congrArg f (Option.some.inj (hc₀.symm.trans hc)))

/-- **A control frame is queued.** -/
theorem Balanced.pushControl (h : Balanced b) (hs : Sound D b) (hc : b.carrierOf c.serial = some c) (he : e.routeSeq = none)
    (room : c.HasRoom e.wireBytes)
    (named : ∀ id, e.route = some id → id < b.fresh ∧ ∀ r, b.routeOf id = some r → id ∈ c.routeIds) :
    Balanced (b.pushControl c.serial e) := by
  have hat := h.carriers _ c hc
  have hp := hat.tidy.pushControl he
  have hnone : ∀ id, [e].filter (QueuedCarrierFrame.carries id) = [] := fun id => filter_carries_nil fun x hx => by
    rw [List.mem_singleton.mp hx]
    exact .inl he
  refine h.post hs hc ⟨hp, carriers_setCarrier hc (by exact fun _ => rfl), rfl, Nat.le_refl _, fun id r hr => ?_, hat.deliveries⟩
    (hp.within_control hat.tidy hat.within he room) (fun id r hr => (h.routes id r hr).within) fun x hx => ?_
  · exact ⟨r, hr, rfl, rfl, by rw [hnone]; rfl, by rw [hnone]; rfl⟩
  · rw [List.mem_singleton.mp hx]
    exact named

theorem carries_iff {e : QueuedCarrierFrame} {id' : Nat} (h : e.carries id = true) : e.carries id' = true ↔ id' = id := by
  obtain ⟨hr, hd⟩ := QueuedCarrierFrame.route_of_carries h
  unfold QueuedCarrierFrame.carries
  rw [Bool.and_eq_true, beq_iff_eq, hr, Option.some.injEq]
  exact ⟨fun hx => hx.1.symm, fun hx => ⟨hx.symm, hd⟩⟩

/-- **A client frame goes on its route.** -/
theorem Balanced.pushEntry (C : Config) (h : Balanced b) (hs : Sound D b) {bytes : Bytes} (hon : On b c r) (fits : r.SendRoom bytes)
    (room : c.DataRoom (Broker.dataEntry C r bytes).wireBytes) :
    Balanced (b.pushEntry c.serial r (Broker.dataEntry C r bytes) bytes) := by
  have hat := h.carriers _ c hon.carrier
  have hroute := h.routes _ r hon.route
  have hcarries : (Broker.dataEntry C r bytes).carries r.routeId = true := by
    simp [QueuedCarrierFrame.carries, Broker.dataEntry]
  have hp := hat.tidy.pushData hcarries
  obtain ⟨c₁, hc₁, hin⟩ := hs.route_carrier hon.route
  have hone : c₁ = c := by
    obtain ⟨hof, ha, ht⟩ := hs.carrierAt_iff.mp hc₁
    exact (hs.same_carrier hof hon.carrier ha hon.attached (ht.trans hon.transport.symm)).2
  have hserial : ∀ c : Carrier, (c.pushData r.routeId (Broker.dataEntry C r bytes)).serial = c.serial := fun c =>
    (c.face_pushData r.routeId (Broker.dataEntry C r bytes)).1
  have hroutes : ∀ id r', (b.pushEntry c.serial r (Broker.dataEntry C r bytes) bytes).routeOf id = some r' →
      (id ≠ r.routeId ∧ b.routeOf id = some r') ∨ (id = r.routeId ∧ r' = { r with
        clientToHostBufferedBytes := r.clientToHostBufferedBytes + bytes.byteLength
        clientToHostFrames := r.clientToHostFrames + 1
        nextClientToHostSeq := r.nextClientToHostSeq + 1 }) := by
    intro id r' hr'
    rcases routeOf_setRoute_cases hr' (by exact fun _ => rfl) with hx | ⟨rfl, r₀, hr₀, rfl⟩
    · exact .inl hx
    · obtain rfl := Option.some.inj (hon.route.symm.trans hr₀)
      exact .inr ⟨rfl, rfl⟩
  refine h.post hs hon.carrier ⟨hp, carriers_setCarrier hon.carrier hserial, rfl, Nat.le_refl _, fun id r' hr' => ?_, ?_⟩
    (hp.within_data hat.tidy room) (fun id r' hr' => ?_) fun x hx id hid => ?_
  · rcases hroutes id r' hr' with ⟨hne, hr₀⟩ | ⟨rfl, rfl⟩
    · have hnone : [Broker.dataEntry C r bytes].filter (QueuedCarrierFrame.carries id) = [] := by
        rw [List.filter_cons_of_neg (by rw [carries_iff hcarries]; exact hne), List.filter_nil]
      exact ⟨r', hr₀, rfl, rfl, by rw [hnone]; rfl, by rw [hnone]; rfl⟩
    · refine ⟨r, hon.route, rfl, rfl, ?_, ?_⟩
      · rw [List.filter_cons_of_pos hcarries]
        simp
      · rw [List.filter_cons_of_pos hcarries]
        simp [Broker.dataEntry]
  · have hflight : (c.pushData r.routeId (Broker.dataEntry C r bytes)).inFlight = c.inFlight := by
      unfold Carrier.pushData
      split <;> rfl
    rw [hflight]
    exact hat.deliveries
  · rcases hroutes id r' hr' with ⟨_, hr₀⟩ | ⟨rfl, rfl⟩
    · exact (h.routes id r' hr₀).within
    · exact ⟨fits.1, fits.2, hroute.within.dueFrames, hroute.within.dueBytes⟩
  · rw [List.mem_singleton.mp hx] at hid
    obtain rfl := Option.some.inj hid
    exact ⟨hs.old_route hon.route, fun _ _ => hone ▸ hin⟩

theorem dispatch_books (s : Nat) (e : QueuedCarrierFrame) (b : Broker) :
    (∀ s', (b.dispatch s e).carrierOf s' = (b.setCarrier s fun c => c.dispatched e b.fresh).carrierOf s') ∧
      Looks Route.books b.routeOf (b.dispatch s e).routeOf ∧ (b.dispatch s e).clients = b.clients ∧
      (b.dispatch s e).fresh = b.fresh + 1 := by
  unfold Broker.dispatch
  dsimp only
  split
  · exact ⟨fun _ => rfl, .update (by exact fun _ => rfl) (by exact fun _ _ => rfl), rfl, rfl⟩
  · exact ⟨fun _ => rfl, .refl _, rfl, rfl⟩

/-- **The head of a queue goes out.** -/
theorem Balanced.dispatch (h : Balanced b) (hs : Sound D b) (hc : b.carrierOf c.serial = some c) {f : Carrier → Carrier}
    (hf : ∀ c, (f c).serial = c.serial) (p : c.Posts [] [] (f (c.dispatched e b.fresh)))
    (hflight : (f (c.dispatched e b.fresh)).inFlight = c.inFlight ++ [⟨e, b.fresh⟩]) :
    Balanced ((b.dispatch c.serial e).setCarrier c.serial f) := by
  obtain ⟨hcar, hr, hk, hfresh⟩ := dispatch_books c.serial e b
  have hle : b.fresh ≤ ((b.dispatch c.serial e).setCarrier c.serial f).fresh := by
    show b.fresh ≤ (b.dispatch c.serial e).fresh
    omega
  refine h.post_gone hs hc ⟨p, fun s x hx => ?_, hk, hle, fun id r' hr' => ?_, fun x hx => ?_⟩
  · rcases carrierOf_setCarrier_cases hx hf with ⟨hne, hx⟩ | ⟨rfl, c₀, hc₀, rfl⟩
    · rw [hcar, carrierOf_setCarrier_ne (by exact fun _ => rfl) hne] at hx
      exact .inl ⟨hne, hx⟩
    · rw [hcar, carrierOf_setCarrier_at hc (by exact fun _ => rfl)] at hc₀
      exact .inr (congrArg f (Option.some.inj hc₀).symm)
  · obtain ⟨r, hr, heq⟩ := hr.get hr'
    simp only [Route.books, Prod.mk.injEq, Route.outgoing] at heq
    obtain ⟨h1, ⟨h2, h3⟩, h4⟩ := heq
    exact ⟨r, hr, h1.symm, h4.symm, by rw [h2], by rw [h3]⟩
  · show x.deliveryId < (b.dispatch c.serial e).fresh
    rw [hflight] at hx
    rcases List.mem_append.mp hx with hx | hx
    · have := (h.carriers _ c hc).deliveries x hx
      omega
    · rw [List.mem_singleton.mp hx]
      dsimp only
      omega

theorem filter_carries_one {e : QueuedCarrierFrame} {id' : Nat} (h : e.carries id = true) :
    [e].filter (QueuedCarrierFrame.carries id') = if id' = id then [e] else [] := by
  split
  · next heq => rw [List.filter_cons_of_pos ((carries_iff h).mpr heq), List.filter_nil]
  · next hne => rw [List.filter_cons_of_neg (by rw [carries_iff h]; exact hne), List.filter_nil]

/-- **A delivery is acknowledged.** -/
theorem Balanced.acknowledge (h : Balanced b) (hs : Sound D b) (hc : b.carrierOf c.serial = some c) {x : InFlightCarrierFrame}
    (hx : x ∈ c.inFlight) : Balanced (b.acknowledge c.serial x) := by
  have hat := h.carriers _ c hc
  have hp := hat.tidy.acknowledge hx
  have hflight : ∀ y ∈ c.inFlight.filter fun y => y.deliveryId ≠ x.deliveryId, y.deliveryId < b.fresh := fun y hy =>
    hat.deliveries y (List.mem_filter.mp hy).1
  have hcar := carriers_setCarrier (f := fun c => { c with
    inFlight := c.inFlight.filter fun y => y.deliveryId ≠ x.deliveryId
    inFlightBytes := c.inFlightBytes - x.wireBytes }) hc (by exact fun _ => rfl)
  unfold Broker.acknowledge
  dsimp only
  split
  · next id seq hid hseq =>
    have hcarries : x.toQueuedCarrierFrame.carries id = true := by
      simp [QueuedCarrierFrame.carries, hid, hseq]
    refine h.post_gone hs hc ⟨hp, hcar, rfl, Nat.le_refl _, fun id' r' hr' => ?_, hflight⟩
    rcases routeOf_setRoute_cases hr' (by exact fun _ => rfl) with ⟨hne, hr⟩ | ⟨rfl, r, hr, rfl⟩
    · refine ⟨r', hr, rfl, rfl, ?_, ?_⟩
      · rw [filter_carries_one hcarries, if_neg hne]
        rfl
      · rw [filter_carries_one hcarries, if_neg hne]
        rfl
    · refine ⟨r, hr, rfl, rfl, ?_, ?_⟩
      · rw [filter_carries_one hcarries, if_pos rfl]
        simp
      · rw [filter_carries_one hcarries, if_pos rfl]
        simp
  · next hno =>
    have hnone : ∀ id, [x.toQueuedCarrierFrame].filter (QueuedCarrierFrame.carries id) = [] := by
      intro id
      rw [List.filter_eq_nil_iff]
      intro y hy hcarries
      rw [List.mem_singleton.mp hy] at hcarries
      obtain ⟨hr, hd⟩ := QueuedCarrierFrame.route_of_carries hcarries
      obtain ⟨seq, hseq⟩ := Option.isSome_iff_exists.mp hd
      exact hno id seq hr hseq
    exact h.post_gone hs hc ⟨hp, hcar, rfl, Nat.le_refl _, fun id r' hr' => ⟨r', hr', rfl, rfl, by rw [hnone]; rfl,
      by rw [hnone]; rfl⟩, hflight⟩

theorem Balanced.discardData (h : Balanced b) (hs : Sound D b) (hc : b.carrierOf c.serial = some c) (id : Nat) :
    Balanced (b.discardQueuedRouteData c id) ∧ ∃ c', (b.discardQueuedRouteData c id).carrierOf c.serial = some c' ∧
      c'.serial = c.serial ∧ c'.routeIds = c.routeIds := by
  have hat := h.carriers _ c hc
  have hp := hat.tidy.withoutData id
  have hface := fun c : Carrier => c.face_withoutData id
  unfold Broker.discardQueuedRouteData
  cases hq : c.dataQueue id with
  | none => exact ⟨h, c, hc, rfl, rfl⟩
  | some q =>
    have htag : ∀ e ∈ q.entries, e.carries id = true := fun e he => by
      rw [← (Keyed.key_of_find hq : q.routeId = id)]
      exact hat.tidy.tagged q (Keyed.mem_of_find hq) e he
    rw [Carrier.entries_of_queue hq] at hp
    have hflight : (c.withoutData id).inFlight = c.inFlight := by
      unfold Carrier.withoutData
      rw [hq]
      exact Carrier.inFlight_invalidateIfEmpty _
    refine ⟨h.post_gone hs hc ⟨hp, carriers_setCarrier hc fun c => (hface c).1, rfl, Nat.le_refl _, fun id' r' hr' => ?_, ?_⟩,
      c.withoutData id, carrierOf_setCarrier_at hc fun c => (hface c).1, (hface c).1, congrArg CarrierFace.routeIds (hface c).2⟩
    · rcases routeOf_setRoute_cases hr' (by exact fun _ => rfl) with ⟨hne, hr⟩ | ⟨rfl, r, hr, rfl⟩
      · have hnone : q.entries.filter (QueuedCarrierFrame.carries id') = [] := by
          rw [List.filter_eq_nil_iff]
          intro e he hcarries
          exact hne ((carries_iff (htag e he)).mp hcarries)
        exact ⟨r', hr, rfl, rfl, by rw [hnone]; rfl, by rw [hnone]; rfl⟩
      · have hall : q.entries.filter (QueuedCarrierFrame.carries id') = q.entries := List.filter_eq_self.mpr htag
        refine ⟨r, hr, rfl, rfl, ?_, ?_⟩
        · rw [hall]
          simp
        · rw [hall]
          simp
    · rw [hflight]
      exact hat.deliveries

theorem Balanced.discardControl (h : Balanced b) (hs : Sound D b) (hc : b.carrierOf c.serial = some c) (id : Nat) :
    Balanced (b.discardQueuedRouteControl c.serial id) := by
  have hat := h.carriers _ c hc
  have hnone : ∀ id', (c.controlQueue.filter fun e => e.route == some id).filter (QueuedCarrierFrame.carries id') = [] :=
    fun id' => filter_carries_nil fun e he => .inl (hat.tidy.control e (List.mem_filter.mp he).1)
  have hflight : (c.withoutControl id).inFlight = c.inFlight := Carrier.inFlight_invalidateIfEmpty _
  refine h.post_gone hs hc ⟨hat.tidy.withoutControl id, carriers_setCarrier hc fun c => (c.face_withoutControl id).1, rfl,
    Nat.le_refl _, fun id' r' hr' => ⟨r', hr', rfl, rfl, by rw [hnone]; rfl, by rw [hnone]; rfl⟩, ?_⟩
  rw [hflight]
  exact hat.deliveries

/-! ## What a client holds changes -/

variable {k' : Client}

theorem credit_update {n : Nat} {f : Client → Client} (hn : (b.clients.map Client.connectionId).Nodup) (hk : b.clientAt n = some k)
    (hb : b'.clients = Keyed.update Client.connectionId n f b.clients) (ids : List Nat) :
    b'.credit ids + (if k.routeId ∈ ids then charge k.load else 0) =
      b.credit ids + if (f k).routeId ∈ ids then charge (f k).load else 0 := by
  unfold Broker.credit
  rw [hb, ((Keyed.perm_update (f := f) hn hk).map _).sum_eq, ((Keyed.perm_erase hn hk).map _).sum_eq, List.map_cons, List.sum_cons,
    List.map_cons, List.sum_cons]
  omega

/-- **The client `k` of the route `r` on the carrier `c` becomes `k'`**, and the counters follow. -/
structure Shifted (b b' : Broker) (c : Carrier) (r : Route) (k k' : Client) (n : Int) : Prop where
  credit : n = c.hostToClientBufferedBytes + (charge k'.load - charge k.load)
  carriers : ∀ s x, b'.carrierOf s = some x →
    (s ≠ c.serial ∧ b.carrierOf s = some x) ∨ x = { c with hostToClientBufferedBytes := n }
  routes : ∀ id x, b'.routeOf id = some x → (id ≠ r.routeId ∧ b.routeOf id = some x) ∨
    (id = r.routeId ∧ x.connectionId = r.connectionId ∧ x.outgoing = r.outgoing ∧
      x.incoming = ((k'.load.length : Int), byteSum k'.load))
  clients : ∃ f, b'.clients = Keyed.update Client.connectionId r.connectionId f b.clients ∧ f k = k' ∧
    ∀ u, (f u).connectionId = u.connectionId
  same : k'.routeId = k.routeId
  fresh : b.fresh ≤ b'.fresh

/-- A route, its client and its carrier. -/
structure Linked (b : Broker) (c : Carrier) (r : Route) (k : Client) : Prop where
  carrier : b.carrierOf c.serial = some c
  listed : r.routeId ∈ c.routeIds
  attached : b.carrierAt r.carrierTransportId = some c
  route : b.routeOf r.routeId = some r
  client : b.clientAt r.connectionId = some k
  named : k.routeId = r.routeId

theorem Sound.client_route (hs : Sound D b) {n : Nat} (hk : b.clientAt n = some k) :
    ∃ r, b.routeOf k.routeId = some r ∧ r.connectionId = n := by
  obtain ⟨f, hf, hn⟩ := hs.owned.routeOf n k.routeId (by
    show (b.clientAt n).map _ = _
    rw [hk]
    rfl)
  obtain ⟨r, hr, rfl⟩ := Option.map_eq_some_iff.mp hf
  exact ⟨r, hr, hn⟩

theorem Sound.linked (hs : Sound D b) (hr : b.routeOf r.routeId = some r) : ∃ c k, Linked b c r k := by
  obtain ⟨c, hc, hin⟩ := hs.route_carrier hr
  obtain ⟨k, hk, hid⟩ := hs.route_client hr
  exact ⟨c, k, (hs.carrierAt_iff.mp hc).1, hin, hc, hr, hk, hid⟩

theorem Linked.of_on (hs : Sound D b) (hon : On b c r) : ∃ k, Linked b c r k := by
  obtain ⟨c', k, hl⟩ := hs.linked hon.route
  obtain rfl : c' = c := Option.some.inj (hl.attached.symm.trans (hs.carrierAt_iff.mpr ⟨hon.carrier, hon.attached, hon.transport⟩))
  exact ⟨k, hl⟩

theorem Balanced.shift (h : Balanced b) (hs : Sound D b) (hl : Linked b c r k) {n : Int} (p : Shifted b b' c r k k' n)
    (client : AtClient b'.fresh k') (within : Carrier.Within { c with hostToClientBufferedBytes := n })
    (room : ∀ x, b'.routeOf r.routeId = some x → x.Within) : Balanced b' := by
  obtain ⟨f, hclients, hf, hkeys⟩ := p.clients
  have hcredit := credit_update hs.connections hl.client hclients
  rw [hf, p.same, hl.named] at hcredit
  have hkey : k.connectionId = r.connectionId := id_of_clientAt hl.client
  have honly : ∀ w ∈ b.clients, w.connectionId = r.connectionId → w = k := fun w hw hk =>
    Keyed.eq_of_mem hs.connections hw (Keyed.mem_of_find hl.client) (hk.trans hkey.symm)
  refine ⟨fun s x hx => ?_, fun id x hx => ?_, fun w hw => ?_⟩
  · rcases p.carriers s x hx with ⟨hne, hx⟩ | rfl
    · -- the route is not on this carrier
      have hnot : r.routeId ∉ x.routeIds := fun hin => hne (hs.one_carrier hx hl.carrier hin hl.listed)
      refine (h.carriers s x hx).keep rfl p.fresh ?_ fun id r' hr' => ?_
      · have := hcredit x.routeIds
        rw [if_neg hnot, if_neg hnot] at this
        omega
      · rcases p.routes id r' hr' with ⟨_, hr⟩ | ⟨rfl, _, ho, _⟩
        · exact ⟨r', hr, fun _ => rfl⟩
        · exact ⟨r, hl.route, fun _ => ho.symm⟩
    · have hat := h.carriers _ c hl.carrier
      refine ⟨⟨hat.tidy.queued, hat.tidy.flying, hat.tidy.order, hat.tidy.once, hat.tidy.filled, hat.tidy.tagged,
        hat.tidy.control, hat.tidy.deliveries⟩, fun e he => Nat.lt_of_lt_of_le (hat.deliveries e he) p.fresh, ?_, within,
        fun e he id hid => ?_, fun id r' hid hr' => ?_⟩
      · have hsum := hcredit c.routeIds
        rw [if_pos hl.listed, if_pos hl.listed] at hsum
        have hof := hat.credit
        have hn := p.credit
        dsimp only
        omega
      · obtain ⟨hlt, hin⟩ := hat.named e he id hid
        refine ⟨Nat.lt_of_lt_of_le hlt p.fresh, fun r' hr' => ?_⟩
        rcases p.routes id r' hr' with ⟨_, hr⟩ | ⟨rfl, _⟩
        · exact hin r' hr
        · exact hl.listed
      · rcases p.routes id r' hr' with ⟨_, hr⟩ | ⟨rfl, _, ho, _⟩
        · exact hat.outgoing id r' hid hr
        · rw [ho]
          exact hat.outgoing _ r hid hl.route
  · rcases p.routes id x hx with ⟨hne, hr⟩ | ⟨rfl, hk, _, hi⟩
    · have hother : x.connectionId ≠ r.connectionId := fun heq => hne (hs.same_route hr hl.route heq)
      refine ⟨fun w hw => (h.routes id x hr).incoming w ?_, (h.routes id x hr).within⟩
      rw [← hw]
      unfold Broker.clientAt
      rw [hclients]
      exact (Keyed.find_update_ne (fun u hu => (hkeys u).trans hu) hother).symm
    · refine ⟨fun w hw => ?_, room x hx⟩
      unfold Broker.clientAt at hw
      rw [hk, hclients, Keyed.find_update_self fun u hu => (hkeys u).trans hu,
        show Keyed.find Client.connectionId r.connectionId b.clients = some k from hl.client, Option.map_some, hf] at hw
      rw [hi, Option.some.inj hw]
  · rw [hclients] at hw
    rcases Keyed.mem_update_iff.mp hw with ⟨u, hu, hk, rfl⟩ | ⟨hw, _⟩
    · rw [honly u hu hk, hf]
      exact client
    · have hold := h.clients w hw
      exact ⟨hold.route, hold.once, fun e he => Nat.lt_of_lt_of_le (hold.deliveries e he) p.fresh⟩

theorem Carrier.Within.of_zero (htotal : c.bufferedBytes = 0) (hdata : wireSum c.data + c.hostToClientBufferedBytes = 0) :
    c.Within := by
  constructor
  · rw [htotal]
    decide
  · rw [hdata]
    decide

theorem Carrier.Within.releasing (h : c.Within) {n : Int} (hn : n ≤ c.hostToClientBufferedBytes) :
    Carrier.Within { c with hostToClientBufferedBytes := n } := by
  have htotal := h.total
  have hdata := h.data
  constructor
  · unfold Carrier.bufferedBytes at htotal ⊢
    dsimp only
    omega
  · show wireSum c.data + n ≤ _
    omega

theorem Balanced.held (h : Balanced b) (hl : Linked b c r k) : r.hostToClientFrames = k.load.length ∧
    r.hostToClientBufferedBytes = byteSum k.load ∧ charge k.load ≤ c.hostToClientBufferedBytes := by
  have hin := (h.routes _ r hl.route).incoming k hl.client
  simp only [Route.incoming, Prod.mk.injEq] at hin
  refine ⟨hin.1, hin.2, ?_⟩
  rw [(h.carriers _ c hl.carrier).credit]
  unfold Broker.credit
  have hmem : charge k.load ∈ b.clients.map fun k => if k.routeId ∈ c.routeIds then charge k.load else 0 :=
    List.mem_map.mpr ⟨k, Keyed.mem_of_find hl.client, by rw [hl.named, if_pos hl.listed]⟩
  refine List.single_le_sum (fun x hx => ?_) _ hmem
  obtain ⟨w, _, rfl⟩ := List.mem_map.mp hx
  split
  · exact charge_nonneg _
  · exact le_rfl

/-- **A release of entries that the client holds takes exactly their sums off the counters.** -/
theorem Balanced.release (h : Balanced b) (hl : Linked b c r k) {entries rest : List QueuedClientFrame}
    (hp : k.load.Perm (entries ++ rest)) :
    (r.releasing entries).incoming = ((rest.length : Int), byteSum rest) ∧
      (c.releasing entries).hostToClientBufferedBytes = c.hostToClientBufferedBytes + (charge rest - charge k.load) := by
  obtain ⟨hframes, hbytes, hcharge⟩ := h.held hl
  have hlen := hp.length_eq
  have hsum := byteSum_perm hp
  have hch := charge_perm hp
  rw [List.length_append] at hlen
  rw [byteSum_append] at hsum
  rw [charge_append] at hch
  have hrest := byteSum_nonneg rest
  have hcrest := charge_nonneg rest
  constructor
  · simp only [Route.incoming, Route.releasing, Prod.mk.injEq]
    rw [release_frames (by omega), release_bytes (by omega)]
    constructor
    · omega
    · omega
  · show Relay.release c.hostToClientBufferedBytes _ = _
    rw [release_bytes (by unfold charge at *; omega)]
    unfold charge at *
    omega

/-- **Entries leave a client**, by whatever `f` does to it. -/
theorem Balanced.leave (h : Balanced b) (hs : Sound D b) (hl : Linked b c r k) {entries : List QueuedClientFrame}
    {f : Client → Client} (hf : ∀ u, (f u).connectionId = u.connectionId) (hname : (f k).routeId = k.routeId)
    (hp : k.load.Perm (entries ++ (f k).load)) (client : AtClient b.fresh (f k)) :
    Balanced ((b.releaseHostToClient r entries).setClient r.connectionId f) := by
  obtain ⟨hin, hch⟩ := h.release hl hp
  have hle : charge (f k).load ≤ charge k.load := by
    have hsum := charge_perm hp
    rw [charge_append] at hsum
    have := charge_nonneg entries
    omega
  have hat : (b.setRoute r.routeId fun r => r.releasing entries).carrierAt r.carrierTransportId = some c := hl.attached
  have hroutes : ∀ id x, ((b.releaseHostToClient r entries).setClient r.connectionId f).routeOf id = some x →
      (id ≠ r.routeId ∧ b.routeOf id = some x) ∨ (id = r.routeId ∧ x = r.releasing entries) := by
    intro id x hx
    have hx' : (b.setRoute r.routeId fun r => r.releasing entries).routeOf id = some x := by
      unfold Broker.releaseHostToClient at hx
      dsimp only at hx
      rw [hat] at hx
      exact hx
    rcases routeOf_setRoute_cases hx' (by exact fun _ => rfl) with hx | ⟨rfl, r₀, hr₀, rfl⟩
    · exact .inl hx
    · exact .inr ⟨rfl, by rw [Option.some.inj (hl.route.symm.trans hr₀)]⟩
  have hfresh : ((b.releaseHostToClient r entries).setClient r.connectionId f).fresh = b.fresh :=
    (releaseHostToClient_rest r entries b).2.2
  refine h.shift hs hl (show Shifted b _ c r k (f k) _ from
      ⟨hch, fun s x hx => ?_, fun id x hx => ?_, ⟨f, ?_, rfl, hf⟩, hname, hfresh.ge⟩)
    (hfresh.symm ▸ client) ((h.carriers _ c hl.carrier).within.releasing (by omega)) fun x hx => ?_
  · have hx' : ((b.setRoute r.routeId fun r => r.releasing entries).setCarrier c.serial fun c => c.releasing entries).carrierOf s =
        some x := by
      unfold Broker.releaseHostToClient at hx
      dsimp only at hx
      rw [hat] at hx
      exact hx
    exact carriers_setCarrier (b := b) (f := fun c => c.releasing entries) hl.carrier (by exact fun _ => rfl) s x hx'
  · rcases hroutes id x hx with hx | ⟨rfl, rfl⟩
    · exact .inl hx
    · exact .inr ⟨rfl, rfl, rfl, hin⟩
  · show Keyed.update Client.connectionId r.connectionId f (b.releaseHostToClient r entries).clients = _
    rw [(releaseHostToClient_rest r entries b).1]
  · rcases hroutes _ x hx with ⟨hne, _⟩ | ⟨_, rfl⟩
    · exact absurd rfl hne
    · obtain ⟨hframes, hbytes, _⟩ := h.held hl
      have hw := (h.routes _ r hl.route).within
      have hlen := hp.length_eq
      have hsum := byteSum_perm hp
      have hnonneg := byteSum_nonneg entries
      rw [List.length_append] at hlen
      rw [byteSum_append] at hsum
      simp only [Route.incoming, Prod.mk.injEq] at hin
      have h1 := hw.dueFrames
      have h2 := hw.dueBytes
      exact ⟨hw.sentFrames, hw.sentBytes, by omega, by omega⟩

theorem Balanced.discardClient (h : Balanced b) (hs : Sound D b) (hl : Linked b c r k) : Balanced (b.discardQueuedClientData r) := by
  unfold Broker.discardQueuedClientData
  rw [hl.client]
  have hclient := h.clients k (Keyed.mem_of_find hl.client)
  refine h.leave hs hl (by exact fun _ => rfl) rfl (.refl _) ⟨fun e he => hclient.route e ?_, hclient.once, hclient.deliveries⟩
  exact List.mem_append_right _ he

theorem releaseHostToClient_setClient (r : Route) (entries : List QueuedClientFrame) (n : Nat) (f : Client → Client) (b : Broker) :
    (b.setClient n f).releaseHostToClient r entries = (b.releaseHostToClient r entries).setClient n f := by
  unfold Broker.releaseHostToClient
  dsimp only
  cases hat : (b.setRoute r.routeId fun r => r.releasing entries).carrierAt r.carrierTransportId with
  | none =>
    rw [show ((b.setClient n f).setRoute r.routeId fun r => r.releasing entries).carrierAt r.carrierTransportId = none from hat]
    rfl
  | some c =>
    rw [show ((b.setClient n f).setRoute r.routeId fun r => r.releasing entries).carrierAt r.carrierTransportId = some c from hat]
    rfl

/-- **A client acknowledges a delivery.** -/
theorem Balanced.received (h : Balanced b) (hs : Sound D b) (hl : Linked b c r k) {x : InFlightClientFrame} (hx : x ∈ k.inFlight) :
    Balanced ((b.setClient k.connectionId fun k => { k with
      inFlight := k.inFlight.filter fun y => y.deliveryId ≠ x.deliveryId }).releaseHostToClient r [x.toQueuedClientFrame]) := by
  have hclient := h.clients k (Keyed.mem_of_find hl.client)
  have hp : k.inFlight.Perm (x :: k.inFlight.filter fun y => y.deliveryId ≠ x.deliveryId) :=
    Keyed.perm_erase hclient.once (Keyed.find_of_mem hclient.once hx)
  have hsub : ∀ y ∈ k.inFlight.filter fun y => y.deliveryId ≠ x.deliveryId, y ∈ k.inFlight := fun y hy => (List.mem_filter.mp hy).1
  rw [releaseHostToClient_setClient, show k.connectionId = r.connectionId from id_of_clientAt hl.client]
  refine h.leave hs hl (by exact fun _ => rfl) rfl ?_ ⟨fun e he => hclient.route e ?_, Keyed.keys_erase hclient.once,
    fun y hy => hclient.deliveries y (hsub y hy)⟩
  · exact ((hp.map InFlightClientFrame.toQueuedClientFrame).append_left k.queue).trans List.perm_middle
  · rcases List.mem_append.mp he with he | he
    · exact List.mem_append_left _ he
    · obtain ⟨y, hy, rfl⟩ := List.mem_map.mp he
      exact List.mem_append_right _ (List.mem_map_of_mem (hsub y hy))

/-- **A frame is handed to a client.** -/
theorem Balanced.hand (h : Balanced b) (hs : Sound D b) (hl : Linked b c r k) {x : QueuedClientFrame} {rest : List QueuedClientFrame}
    (head : k.queue = x :: rest) (f : Client → Client) (hf : ∀ u, (f u).connectionId = u.connectionId)
    (hk : (f k).routeId = k.routeId ∧ (f k).queue = k.queue.tail ∧ (f k).inFlight = k.inFlight ++ [⟨x, b.fresh⟩]) :
    Balanced (b.setClient k.connectionId f).named := by
  obtain ⟨hname, hqueue, hflight⟩ := hk
  have hclient := h.clients k (Keyed.mem_of_find hl.client)
  have hp : (f k).load.Perm k.load := by
    unfold Client.load
    rw [hqueue, hflight, head, List.tail_cons, List.map_append, List.cons_append, ← List.append_assoc]
    exact List.perm_append_singleton x _
  have hin := (h.routes _ r hl.route).incoming k hl.client
  have hroutes : ∀ id y, (b.setClient k.connectionId f).named.routeOf id = some y → b.routeOf id = some y := fun id y hy => hy
  refine h.shift hs hl (show Shifted b _ c r k (f k) c.hostToClientBufferedBytes from
      ⟨by rw [charge_perm hp]; omega, fun s y hy => ?_, fun id y hy => ?_, ⟨f, ?_, rfl, hf⟩, hname, Nat.le_succ _⟩)
    ⟨fun e he => ?_, ?_, fun e he => ?_⟩
    (h.carriers _ c hl.carrier).within fun y hy => ?_
  · by_cases hne : s = c.serial
    · subst hne
      exact .inr (Option.some.inj (hl.carrier.symm.trans hy)).symm
    · exact .inl ⟨hne, hy⟩
  · by_cases hne : id = r.routeId
    · subst hne
      obtain rfl := Option.some.inj (hl.route.symm.trans (hroutes _ y hy))
      exact .inr ⟨rfl, rfl, rfl, by rw [hp.length_eq, byteSum_perm hp]; exact hin⟩
    · exact .inl ⟨hne, hy⟩
  · show Keyed.update Client.connectionId k.connectionId f b.clients = _
    rw [show k.connectionId = r.connectionId from id_of_clientAt hl.client]
  · rw [hname]
    exact hclient.route e (hp.subset he)
  · rw [hflight, List.map_append]
    refine hclient.once.append (by simp) fun y hy hy' => ?_
    obtain ⟨z, hz, rfl⟩ := List.mem_map.mp hy
    rw [List.map_singleton, List.mem_singleton] at hy'
    exact Nat.lt_irrefl _ (hy' ▸ hclient.deliveries z hz)
  · show e.deliveryId < b.fresh + 1
    rw [hflight] at he
    rcases List.mem_append.mp he with he | he
    · exact Nat.lt_succ_of_lt (hclient.deliveries e he)
    · rw [List.mem_singleton.mp he]
      exact Nat.lt_succ_self _
  · exact (h.routes _ y (hroutes _ y hy)).within

/-- **A frame is queued for the client of a route.** -/
theorem Balanced.pushFrame (h : Balanced b) (hs : Sound D b) (hl : Linked b c r k) {bytes : Bytes} {charged : Bool}
    (fits : r.ReceiveRoom bytes) (room : charged = true → c.DataRoom bytes.byteLength) :
    Balanced (b.pushFrame c.serial r bytes charged) := by
  have hclient := h.clients k (Keyed.mem_of_find hl.client)
  have hat := h.carriers _ c hl.carrier
  have hroute := h.routes _ r hl.route
  have hin := hroute.incoming k hl.client
  simp only [Route.incoming, Prod.mk.injEq] at hin
  have hp : Client.load { k with queue := k.queue ++ [⟨bytes, r.routeId, charged⟩] } =
      k.queue ++ ⟨bytes, r.routeId, charged⟩ :: k.inFlight.map InFlightClientFrame.toQueuedClientFrame := by
    unfold Client.load
    rw [List.append_assoc, List.singleton_append]
  have hperm : (k.queue ++ ⟨bytes, r.routeId, charged⟩ :: k.inFlight.map InFlightClientFrame.toQueuedClientFrame).Perm
      (⟨bytes, r.routeId, charged⟩ :: k.load) := List.perm_middle
  have hlen := hperm.length_eq
  have hsum := byteSum_perm hperm
  have hch := charge_perm hperm
  have hcharge : charge (⟨bytes, r.routeId, charged⟩ :: k.load) = (if charged then (bytes.byteLength : Int) else 0) + charge k.load := by
    unfold charge
    cases charged <;> simp
  rw [List.length_cons] at hlen
  rw [byteSum_cons] at hsum
  dsimp only at hsum
  rw [hcharge] at hch
  have hroutes : ∀ id x, (b.pushFrame c.serial r bytes charged).routeOf id = some x →
      (id ≠ r.routeId ∧ b.routeOf id = some x) ∨ (id = r.routeId ∧ x = { r with
        hostToClientFrames := r.hostToClientFrames + 1
        hostToClientBufferedBytes := r.hostToClientBufferedBytes + bytes.byteLength }) := by
    intro id x hx
    rcases routeOf_setRoute_cases (b := b) hx (by exact fun _ => rfl) with hx | ⟨rfl, r₀, hr₀, rfl⟩
    · exact .inl hx
    · obtain rfl := Option.some.inj (hl.route.symm.trans hr₀)
      exact .inr ⟨rfl, rfl⟩
  refine h.shift hs hl (show Shifted b _ c r k { k with queue := k.queue ++ [⟨bytes, r.routeId, charged⟩] }
      (c.hostToClientBufferedBytes + if charged then bytes.byteLength else 0) from
      ⟨?_, carriers_setCarrier (b := b) hl.carrier (by exact fun _ => rfl), fun id x hx => ?_,
        ⟨fun k => { k with queue := k.queue ++ [⟨bytes, r.routeId, charged⟩] }, rfl, rfl, fun _ => rfl⟩, rfl, Nat.le_refl _⟩)
    ⟨fun e he => ?_, hclient.once, hclient.deliveries⟩ ?_ fun x hx => ?_
  · rw [hp, hch]
    cases charged <;> simp
  · rcases hroutes id x hx with hx | ⟨rfl, rfl⟩
    · exact .inl hx
    · refine .inr ⟨rfl, rfl, rfl, ?_⟩
      rw [hp]
      simp only [Route.incoming, Prod.mk.injEq]
      constructor
      · omega
      · omega
  · rw [hp] at he
    rcases List.mem_cons.mp (hperm.subset he) with rfl | he
    · exact hl.named.symm
    · exact hclient.route e he
  · cases charged with
    | false => exact hat.within.releasing (by simp)
    | true =>
      have hroom := room rfl
      have hbuffered := hat.tidy.bufferedBytes
      have hle : wireSum c.data ≤ wireSum c.held := wireSum_filter_le _ _
      have hreserve : (0 : Int) ≤ carrierControlReserveBytes := Int.natCast_nonneg _
      unfold Carrier.DataRoom at hroom
      constructor
      · unfold Carrier.bufferedBytes at hroom ⊢
        dsimp only
        rw [if_pos rfl]
        omega
      · show wireSum c.data + (c.hostToClientBufferedBytes + if true then (bytes.byteLength : Int) else 0) ≤ _
        rw [if_pos rfl]
        omega
  · rcases hroutes _ x hx with ⟨hne, _⟩ | ⟨_, rfl⟩
    · exact absurd rfl hne
    · exact ⟨hroute.within.sentFrames, hroute.within.sentBytes, fits.1, fits.2⟩

/-! ## Routes and carriers that come and go -/

/-- **A route goes, and its client with all it holds.** -/
theorem Balanced.remove (h : Balanced b) (hs : Sound D b) (hl : Linked b c r k) {n : Int}
    (hn : n = c.hostToClientBufferedBytes - charge k.load)
    (carriers : ∀ s x, b'.carrierOf s = some x → (s ≠ c.serial ∧ b.carrierOf s = some x) ∨
      x = { c with routeIds := c.routeIds.erase r.routeId, hostToClientBufferedBytes := n })
    (routes : ∀ id x, b'.routeOf id = some x → id ≠ r.routeId ∧ b.routeOf id = some x)
    (clients : b'.clients = Keyed.erase Client.connectionId r.connectionId b.clients) (fresh : b'.fresh = b.fresh) :
    Balanced b' := by
  -- what the other clients hold
  have hother : ∀ w ∈ b'.clients, w ∈ b.clients ∧ w.routeId ≠ r.routeId := by
    intro w hw
    rw [clients] at hw
    obtain ⟨hw, hne⟩ := Keyed.mem_erase_iff.mp hw
    refine ⟨hw, fun heq => hne ?_⟩
    have hat : b.clientAt w.connectionId = some w := Keyed.find_of_mem hs.connections hw
    obtain ⟨r', hr', hk⟩ := hs.client_route hat
    rw [heq, hl.route] at hr'
    rw [Option.some.inj hr', hk]
  have hcredit : ∀ ids, b'.credit ids + (if r.routeId ∈ ids then charge k.load else 0) = b.credit ids := by
    intro ids
    unfold Broker.credit
    rw [clients, ((Keyed.perm_erase hs.connections hl.client).map _).sum_eq, List.map_cons, List.sum_cons, hl.named]
    omega
  have herase : ∀ ids, b'.credit (ids.erase r.routeId) = b'.credit ids := by
    intro ids
    unfold Broker.credit
    congr 1
    refine List.map_congr_left fun w hw => ?_
    simp only [List.mem_erase_of_ne (hother w hw).2]
  refine ⟨fun s x hx => ?_, fun id x hx => ?_, fun w hw => ?_⟩
  · rcases carriers s x hx with ⟨hne, hx⟩ | rfl
    · refine (h.carriers s x hx).keep rfl fresh.ge ?_ fun id r' hr' => ⟨r', (routes id r' hr').2, fun _ => rfl⟩
      have hnot : r.routeId ∉ x.routeIds := fun hin => hne (hs.one_carrier hx hl.carrier hin hl.listed)
      have := hcredit x.routeIds
      rw [if_neg hnot] at this
      omega
    · have hat := h.carriers _ c hl.carrier
      obtain ⟨_, _, hle⟩ := h.held hl
      have hnonneg := charge_nonneg k.load
      have hw : Carrier.Within { c with hostToClientBufferedBytes := n } := hat.within.releasing (by omega)
      refine ⟨⟨hat.tidy.queued, hat.tidy.flying, hat.tidy.order, hat.tidy.once, hat.tidy.filled, hat.tidy.tagged,
        hat.tidy.control, hat.tidy.deliveries⟩, fun e he => fresh ▸ hat.deliveries e he, ?_, ⟨hw.total, hw.data⟩,
        fun e he id hid => ?_, fun id r' hid hr' => ?_⟩
      · have hsum := hcredit c.routeIds
        rw [if_pos hl.listed, ← hat.credit] at hsum
        show n = _
        rw [herase]
        omega
      · obtain ⟨hlt, hin⟩ := hat.named e he id hid
        refine ⟨fresh ▸ hlt, fun r' hr' => ?_⟩
        obtain ⟨hne, hr⟩ := routes id r' hr'
        exact (List.mem_erase_of_ne hne).mpr (hin r' hr)
      · exact hat.outgoing id r' (List.mem_of_mem_erase hid) (routes id r' hr').2
  · obtain ⟨hne, hr⟩ := routes id x hx
    refine ⟨fun w hw => (h.routes id x hr).incoming w ?_, (h.routes id x hr).within⟩
    have hconn : x.connectionId ≠ r.connectionId := fun heq => hne (hs.same_route hr hl.route heq)
    unfold Broker.clientAt at hw ⊢
    rw [clients, Keyed.find_erase_ne hconn] at hw
    exact hw
  · exact fresh ▸ h.clients w (hother w hw).1

theorem carrierAt_dropRouteIds {s id t : Nat} (b : Broker) : (b.setCarrier s fun c =>
    { c with routeIds := c.routeIds.erase id }).carrierAt t = (b.carrierAt t).map fun c =>
      if c.serial = s then { c with routeIds := c.routeIds.erase id } else c := carrierAt_setCarrier t (by exact fun _ => ⟨rfl, rfl⟩)

/-- **A route is dropped.** -/
theorem Balanced.drop (h : Balanced b) (hs : Sound D b) (hr : b.routeOf r.routeId = some r) : Balanced (b.dropRoute r) := by
  obtain ⟨c, k, hl⟩ := hs.linked hr
  -- what the carrier has queued of the route
  obtain ⟨h₁, c₁, hc₁, hserial₁, hids₁⟩ := h.discardData hs hl.carrier r.routeId
  have hs₁ := (Kept.discardQueuedRouteData c r.routeId b).sound hs
  obtain ⟨look₁, cl₁, _, fr₁⟩ := discardData_routes c r.routeId b
  have h₂ := h₁.discardControl hs₁ (hserial₁ ▸ hc₁) r.routeId
  rw [hserial₁] at h₂
  obtain ⟨b₂, hb₂⟩ : ∃ b₂, b₂ = (b.discardQueuedRouteData c r.routeId).discardQueuedRouteControl c.serial r.routeId := ⟨_, rfl⟩
  rw [← hb₂] at h₂
  have hs₂ : Sound D b₂ := hb₂ ▸ (Kept.discardQueuedRouteControl c.serial r.routeId _).sound hs₁
  have hc₂ : b₂.carrierOf c.serial = some (c₁.withoutControl r.routeId) := by
    rw [hb₂]
    exact carrierOf_setCarrier_at hc₁ fun c => (c.face_withoutControl r.routeId).1
  obtain ⟨r₂, hr₂, hpipe⟩ := Looks.get (fun id => (look₁ id).symm) hr
  simp only [Route.pipe, Prod.mk.injEq] at hpipe
  have hr₂' : b₂.routeOf r.routeId = some r₂ := hb₂ ▸ hr₂
  have hid : r₂.routeId = r.routeId := id_of_routeOf hr₂'
  have hconn : r₂.connectionId = r.connectionId := hpipe.1.1
  have htransport : r₂.carrierTransportId = r.carrierTransportId := hpipe.1.2.2
  obtain ⟨c₂, k₂, hl₂⟩ := hs₂.linked (r := r₂) (by rw [hid]; exact hr₂')
  have hserial : c₂.serial = c.serial := by
    refine hs₂.one_carrier hl₂.carrier hc₂ hl₂.listed ?_
    rw [hid, show (c₁.withoutControl r.routeId).routeIds = c₁.routeIds from
      congrArg CarrierFace.routeIds (c₁.face_withoutControl r.routeId).2, hids₁]
    exact hl.listed
  have hclients : b₂.clients = b.clients := by
    rw [hb₂]
    exact cl₁
  have hk₂ : b₂.clientAt r.connectionId = some k₂ := hconn ▸ hl₂.client
  -- the route is taken off the carrier, and what the client holds with it
  have hfrom : Broker.dropFromCarrier r b = b₂.setCarrier c.serial fun c => { c with routeIds := c.routeIds.erase r.routeId } := by
    unfold Broker.dropFromCarrier
    rw [hl.attached, hb₂]
  have hattached : b₂.carrierAt r.carrierTransportId = some c₂ := htransport ▸ hl₂.attached
  have hat : ((Broker.dropFromCarrier r b).setRoute r.routeId fun r => r.releasing
      (k₂.queue ++ k₂.inFlight.map InFlightClientFrame.toQueuedClientFrame)).carrierAt r.carrierTransportId =
      some { c₂ with routeIds := c₂.routeIds.erase r.routeId } := by
    show (Broker.dropFromCarrier r b).carrierAt r.carrierTransportId = _
    rw [hfrom, carrierAt_dropRouteIds, hattached, Option.map_some, if_pos hserial]
  have hdrop : b.dropRoute r =
      { (((Broker.dropFromCarrier r b).setRoute r.routeId fun r => r.releasing
          (k₂.queue ++ k₂.inFlight.map InFlightClientFrame.toQueuedClientFrame)).setCarrier c₂.serial fun c => c.releasing
            (k₂.queue ++ k₂.inFlight.map InFlightClientFrame.toQueuedClientFrame)) with
        clients := Keyed.erase Client.connectionId r.connectionId b₂.clients
        routes := Keyed.erase Route.routeId r.routeId ((Broker.dropFromCarrier r b).setRoute r.routeId fun r => r.releasing
          (k₂.queue ++ k₂.inFlight.map InFlightClientFrame.toQueuedClientFrame)).routes } := by
    unfold Broker.dropRoute Broker.dropFromClient
    rw [show (Broker.dropFromCarrier r b).clientAt r.connectionId = some k₂ by rw [hfrom]; exact hk₂]
    dsimp only
    unfold Broker.releaseHostToClient
    dsimp only
    rw [hat, hfrom]
    rfl
  obtain ⟨_, hch⟩ := h₂.release hl₂ (show k₂.load.Perm (k₂.load ++ []) by rw [List.append_nil])
  rw [hdrop]
  refine h₂.remove hs₂ hl₂ (n := (c₂.releasing k₂.load).hostToClientBufferedBytes) ?_ (fun s x hx => ?_) (fun id x hx => ?_) ?_ ?_
  · rw [hch, show charge ([] : List QueuedClientFrame) = 0 from rfl]
    omega
  · have hx' : (((b₂.setCarrier c.serial fun c => { c with routeIds := c.routeIds.erase r.routeId })).setCarrier c₂.serial fun c =>
        c.releasing k₂.load).carrierOf s = some x := by
      rw [← hfrom]
      exact hx
    rcases carrierOf_setCarrier_cases hx' (by exact fun _ => rfl) with ⟨hne, hx⟩ | ⟨rfl, c₀, hc₀, rfl⟩
    · rw [carrierOf_setCarrier_ne (by exact fun _ => rfl) (hserial ▸ hne)] at hx
      exact .inl ⟨hne, hx⟩
    · rw [hserial, carrierOf_setCarrier_at (c := c₂) (by rw [← hserial]; exact hl₂.carrier) (by exact fun _ => rfl)] at hc₀
      rw [← Option.some.inj hc₀, hid]
      exact .inr rfl
  · have hx' : Keyed.find Route.routeId id (Keyed.erase Route.routeId r.routeId ((Broker.dropFromCarrier r b).setRoute r.routeId
        fun r => r.releasing (k₂.queue ++ k₂.inFlight.map InFlightClientFrame.toQueuedClientFrame)).routes) = some x := hx
    rw [hid]
    have hne : id ≠ r.routeId := fun heq => by
      rw [heq, Keyed.find_erase_self] at hx'
      cases hx'
    refine ⟨hne, ?_⟩
    rw [Keyed.find_erase_ne hne] at hx'
    have hx'' := (routeOf_setRoute_ne (b := Broker.dropFromCarrier r b) (by exact fun _ => rfl) hne).symm.trans hx'
    rw [hfrom] at hx''
    exact hx''
  · rw [hconn]
  · show (Broker.dropFromCarrier r b).fresh = b₂.fresh
    rw [hfrom]
    rfl

/-- **A route is made.** -/
theorem Balanced.addRoute (h : Balanced b) (hs : Sound D b) (hc : b.carrierOf c.serial = some c) {x : Carrier}
    (hx : x.serial = c.serial) (hnew : b.routeOf r.routeId = none) (free : b.clientAt r.connectionId = none)
    (hzero : r.outgoing = (0, 0) ∧ r.incoming = (0, 0)) (hload : c.load r.routeId = []) (hlt : r.routeId < b.fresh)
    (elsewhere : ∀ s y, b.carrierOf s = some y → s ≠ c.serial → ∀ e ∈ y.held, e.route ≠ some r.routeId) :
    Balanced (b.addRoute x r) := by
  have hroutes : ∀ id r', (b.addRoute x r).routeOf id = some r' → (id ≠ r.routeId ∧ b.routeOf id = some r') ∨
      (id = r.routeId ∧ r' = r) := by
    intro id r' hr'
    rw [routeOf_addRoute x hnew] at hr'
    split at hr'
    · next heq => exact .inr ⟨heq, (Option.some.inj hr').symm⟩
    · next hne => exact .inl ⟨hne, hr'⟩
  have hold : ∀ w ∈ b.clients, w.routeId ≠ r.routeId := by
    intro w hw heq
    have hat : b.clientAt w.connectionId = some w := Keyed.find_of_mem hs.connections hw
    obtain ⟨r', hr', _⟩ := hs.client_route hat
    rw [heq, hnew] at hr'
    cases hr'
  have hcredit : ∀ ids, (b.addRoute x r).credit ids = b.credit ids := by
    intro ids
    unfold Broker.credit Broker.addRoute
    show (List.map _ (b.clients ++ [_])).sum = _
    rw [List.map_append, List.sum_append]
    simp [Client.load, charge]
  have hwithin : r.Within := by
    simp only [Route.outgoing, Route.incoming, Prod.mk.injEq] at hzero
    obtain ⟨⟨h1, h2⟩, h3, h4⟩ := hzero
    exact ⟨by rw [h1]; decide, by rw [h2]; decide, by rw [h3]; decide, by rw [h4]; decide⟩
  refine ⟨fun s y hy => ?_, fun id r' hr' => ?_, fun w hw => ?_⟩
  · have hy' : (b.setCarrier c.serial fun c => { c with routeIds := c.routeIds ++ [r.routeId] }).carrierOf s = some y := by
      rw [← hx]
      exact hy
    rcases carriers_setCarrier hc (by exact fun _ => rfl) s y hy' with ⟨hne, hy⟩ | rfl
    · have hat := h.carriers s y hy
      refine ⟨hat.tidy, hat.deliveries, by rw [hcredit]; exact hat.credit, hat.within, fun e he id hid => ?_,
        fun id r' hid hr' => ?_⟩
      · refine ⟨(hat.named e he id hid).1, fun r' hr' => ?_⟩
        rcases hroutes id r' hr' with ⟨_, hr⟩ | ⟨rfl, _⟩
        · exact (hat.named e he id hid).2 r' hr
        · exact absurd hid (elsewhere s y hy hne e he)
      · rcases hroutes id r' hr' with ⟨_, hr⟩ | ⟨rfl, _⟩
        · exact hat.outgoing id r' hid hr
        · obtain ⟨_, rf, hrf, _⟩ := hs.owned.listed s y.face r.routeId (ownership_carrier hy) hid
          obtain ⟨r', hr', _⟩ := Option.map_eq_some_iff.mp hrf
          rw [hnew] at hr'
          cases hr'
    · have hat := h.carriers _ c hc
      refine ⟨⟨hat.tidy.queued, hat.tidy.flying, hat.tidy.order, hat.tidy.once, hat.tidy.filled, hat.tidy.tagged,
        hat.tidy.control, hat.tidy.deliveries⟩, hat.deliveries, ?_, ⟨hat.within.total, hat.within.data⟩, fun e he id hid => ?_,
        fun id r' hid hr' => ?_⟩
      · rw [hcredit]
        refine hat.credit.trans ?_
        unfold Broker.credit
        congr 1
        refine List.map_congr_left fun w hw => ?_
        simp [hold w hw]
      · refine ⟨(hat.named e he id hid).1, fun r' hr' => ?_⟩
        rcases hroutes id r' hr' with ⟨_, hr⟩ | ⟨rfl, _⟩
        · exact List.mem_append_left _ ((hat.named e he id hid).2 r' hr)
        · simp
      · rcases hroutes id r' hr' with ⟨hne, hr⟩ | ⟨rfl, rfl⟩
        · have hid' : id ∈ c.routeIds := by simpa [hne] using hid
          exact hat.outgoing id r' hid' hr
        · show r'.outgoing = (((c.load r'.routeId).length : Int), rawSum (c.load r'.routeId))
          rw [hload]
          exact hzero.1
  · have hclients : (b.addRoute x r).clientAt r'.connectionId = (b.clientAt r'.connectionId).or
        (if r.connectionId = r'.connectionId then some { connectionId := r.connectionId
                                                         connectionIncarnation := r.connectionIncarnation
                                                         authContext := r.authContext
                                                         routeId := r.routeId } else none) :=
      Keyed.find_append_single
    rcases hroutes id r' hr' with ⟨_, hr⟩ | ⟨rfl, rfl⟩
    · refine ⟨fun w hw => (h.routes id r' hr).incoming w ?_, (h.routes id r' hr).within⟩
      obtain ⟨u, hu, _⟩ := hs.route_client hr
      rw [hclients, hu, Option.some_or] at hw
      rw [hu]
      exact hw
    · refine ⟨fun w hw => ?_, hwithin⟩
      rw [hclients, free, Option.none_or, if_pos rfl] at hw
      rw [← Option.some.inj hw]
      exact hzero.2
  · rcases List.mem_append.mp hw with hw | hw
    · exact h.clients w hw
    · rw [List.mem_singleton.mp hw]
      exact ⟨(fun _ he => nomatch he), List.nodup_nil, fun _ he => nomatch he⟩

theorem discarded_routes {l : List InFlightCarrierFrame} (hl : ∀ e ∈ l, ∀ id, e.route = some id → b.routeOf id = none) :
    l.foldl (fun b e =>
      match e.route, e.routeSeq with
      | some routeId, some _ => b.setRoute routeId fun r =>
        { r with
          clientToHostBufferedBytes := max 0 (r.clientToHostBufferedBytes - e.rawBytes)
          clientToHostFrames := max 0 (r.clientToHostFrames - 1) }
      | _, _ => b) b = b := by
  induction l with
  | nil => rfl
  | cons e l ih =>
    rw [List.foldl_cons]
    split
    · next id _ hid _ =>
      have hnone : b.routeOf id = none := hl e List.mem_cons_self id hid
      have hsame : (b.setRoute id fun r =>
          { r with
            clientToHostBufferedBytes := max 0 (r.clientToHostBufferedBytes - e.rawBytes)
            clientToHostFrames := max 0 (r.clientToHostFrames - 1) }) = b := by
        show { b with routes := _ } = b
        rw [Keyed.update_none hnone]
      rw [hsame]
      exact ih fun x hx => hl x (List.mem_cons_of_mem _ hx)
    · exact ih fun x hx => hl x (List.mem_cons_of_mem _ hx)

/-- **A carrier without routes is discarded.** -/
theorem Balanced.discard (h : Balanced b) (hc : b.carrierOf c.serial = some c) (hroutes : c.routeIds = []) :
    Balanced (b.discardCarrier c.serial) := by
  have hat := h.carriers _ c hc
  have hgone : ∀ e ∈ c.inFlight, ∀ id, e.route = some id → b.routeOf id = none := by
    intro e he id hid
    by_contra hne
    obtain ⟨r, hr⟩ := Option.ne_none_iff_exists'.mp hne
    have hin := (hat.named e.toQueuedCarrierFrame (List.mem_append_right _ (List.mem_map_of_mem he)) id hid).2 r hr
    rw [hroutes] at hin
    cases hin
  unfold Broker.discardCarrier
  rw [hc]
  dsimp only
  suffices hsame : ∀ b₁, b₁ = b → Balanced (b₁.setCarrier c.serial Carrier.discarded) from hsame _ (discarded_routes hgone)
  rintro b₁ rfl
  refine ⟨fun s x hx => ?_, fun id r hr => ⟨(h.routes id r hr).incoming, (h.routes id r hr).within⟩, h.clients⟩
  rcases carriers_setCarrier hc (by exact fun _ => rfl) s x hx with ⟨_, hx⟩ | rfl
  · exact (h.carriers s x hx).keep rfl (Nat.le_refl _) rfl fun _ r hr => ⟨r, hr, fun _ => rfl⟩
  · obtain ⟨htidy, hheld⟩ := Carrier.tidy_discarded c
    refine ⟨htidy, (fun _ he => nomatch he), ?_, .of_zero rfl ?_, fun e he => ?_, fun _ _ hid => nomatch hid⟩
    · show (0 : Int) = b₁.credit []
      simp [Broker.credit]
    · unfold Carrier.data
      rw [hheld]
      rfl
    · rw [hheld] at he
      cases he

/-- **A carrier is attached.** -/
theorem Balanced.attach (h : Balanced b) (t : Nat) (a : Authorization) (i : Nat) :
    Balanced { b.named with carriers := b.carriers ++
      [{ serial := b.fresh, attached := true, transportId := t, connectionIncarnation := i, authContext := a }] } := by
  refine ⟨fun s x hx => ?_, fun id r hr => ⟨(h.routes id r hr).incoming, (h.routes id r hr).within⟩, fun k hk => ?_⟩
  · have hx' : (b.carrierOf s).or (if b.fresh = s then some { serial := b.fresh, attached := true, transportId := t,
                                                                connectionIncarnation := i, authContext := a } else none) =
        some x := Keyed.find_append_single.symm.trans hx
    rcases Option.or_eq_some_iff.mp hx' with hx | ⟨_, hx⟩
    · exact (h.carriers s x hx).keep rfl (Nat.le_succ _) rfl fun _ r hr => ⟨r, hr, fun _ => rfl⟩
    · split at hx
      · obtain rfl := Option.some.inj hx
        refine ⟨⟨rfl, rfl, rfl, List.nodup_nil, (fun _ h => nomatch h), (fun _ h => nomatch h), (fun _ h => nomatch h),
          List.nodup_nil⟩, (fun _ he => nomatch he), ?_, .of_zero rfl rfl, (fun _ he => nomatch he), fun _ _ hid => nomatch hid⟩
        show (0 : Int) = b.credit []
        simp [Broker.credit]
      · cases hx
  · have hold := h.clients k hk
    exact ⟨hold.route, hold.once, fun e he => Nat.lt_succ_of_lt (hold.deliveries e he)⟩

/-! ## Moves, operations and runs -/

variable {C : Config} {P : Permits} {D' : List Nat}

/-- **A route is made for a new connection.** -/
theorem Balanced.openRoute (h : Balanced b) (hs : Sound D b) (connectionId : Nat) (a : Authorization) (i connectorId : Nat)
    (hc : b.carrierOf c.serial = some c) (free : b.clientAt connectionId = none)
    (room : c.HasRoom (C.codec.wireBytes (b.newRoute c connectionId a i connectorId).openFrame)) :
    Balanced ((b.named.named.named.pushControl c.serial (Broker.controlEntry C
      (b.newRoute c connectionId a i connectorId).openFrame (some b.fresh))).addRoute c
        (b.newRoute c connectionId a i connectorId)) := by
  have hnew : b.routeOf b.fresh = none := by
    by_contra hne
    obtain ⟨r, hr⟩ := Option.ne_none_iff_exists'.mp hne
    exact Nat.lt_irrefl _ (hs.old_route hr)
  have hat := h.carriers _ c hc
  obtain ⟨b₁, hb₁⟩ : ∃ b₁, b₁ = b.named.named.named := ⟨_, rfl⟩
  have h₁ : Balanced b₁ := hb₁ ▸ h.settled (((Settled.named b).trans (.named _)).trans (.named _))
  have hs₁ : Sound D b₁ := hb₁ ▸ (((Kept.named b).trans (.named _)).trans (.named _)).sound hs
  have hc₁ : b₁.carrierOf c.serial = some c := hb₁ ▸ hc
  have hfresh : b.fresh < b₁.fresh := hb₁ ▸ (by show b.fresh < b.fresh + 3; omega)
  obtain ⟨e, he⟩ : ∃ e, e = Broker.controlEntry C (b.newRoute c connectionId a i connectorId).openFrame (some b.fresh) := ⟨_, rfl⟩
  have hnew₁ : b₁.routeOf b.fresh = none := hb₁ ▸ hnew
  have h₂ : Balanced (b₁.pushControl c.serial e) := by
    refine h₁.pushControl hs₁ hc₁ (he ▸ rfl) (he ▸ room) fun id hid => ?_
    rw [he] at hid
    obtain rfl := Option.some.inj hid
    exact ⟨hfresh, fun r hr => absurd (hnew₁.symm.trans hr) (by simp)⟩
  have hs₂ : Sound D (b₁.pushControl c.serial e) := (Kept.setCarrier b₁ _ (by exact fun _ => ⟨rfl, rfl⟩)).sound hs₁
  have hpushed := hat.tidy.pushControl (e := e) (he ▸ rfl)
  have hc₂ : (b₁.pushControl c.serial e).carrierOf c.serial = some
      { c with controlQueue := c.controlQueue ++ [e], queuedBytes := c.queuedBytes + e.wireBytes } :=
    carrierOf_setCarrier_at hc₁ (by exact fun _ => rfl)
  rw [← hb₁, ← he]
  refine h₂.addRoute (c := { c with controlQueue := c.controlQueue ++ [e], queuedBytes := c.queuedBytes + e.wireBytes })
    hs₂ hc₂ rfl hnew₁ (hb₁ ▸ free) ⟨rfl, rfl⟩ ?_ hfresh fun s y hy hne x hx hid => ?_
  · -- no data of the new route is held yet
    refine filter_carries_nil fun x hx => ?_
    rcases List.mem_cons.mp (hpushed.held.subset hx) with rfl | hx
    · exact .inl (he ▸ rfl)
    · exact .inr fun hid => Nat.lt_irrefl _ (hat.named x hx _ hid).1
  · rcases carriers_setCarrier hc₁ (by exact fun _ => rfl) s y hy with ⟨_, hy⟩ | rfl
    · rw [hb₁] at hy
      exact Nat.lt_irrefl _ ((h.carriers s y hy).named x hx _ hid).1
    · exact hne (serial_of_carrierOf hy).symm

/-- **A route begins to close.** -/
theorem Balanced.close (h : Balanced b) (hs : Sound D b) (hon : On b c r) (withControl : Bool) :
    Balanced (b.closeRoute c r withControl) := by
  obtain ⟨h₁, c₁, hc₁, hserial₁, _⟩ := h.discardData hs hon.carrier r.routeId
  have hs₁ := (Kept.discardQueuedRouteData c r.routeId b).sound hs
  obtain ⟨look₁, _⟩ := discardData_routes c r.routeId b
  unfold Broker.closeRoute
  dsimp only
  obtain ⟨b₂, hb₂⟩ : ∃ b₂, b₂ = if withControl then
      (b.discardQueuedRouteData c r.routeId).discardQueuedRouteControl c.serial r.routeId
    else b.discardQueuedRouteData c r.routeId := ⟨_, rfl⟩
  rw [← hb₂]
  have h₂ : Balanced b₂ ∧ Sound D b₂ ∧ b₂.routes = (b.discardQueuedRouteData c r.routeId).routes := by
    rw [hb₂]
    split
    · rw [← hserial₁]
      exact ⟨h₁.discardControl hs₁ (hserial₁ ▸ hc₁) r.routeId, (Kept.discardQueuedRouteControl _ r.routeId _).sound hs₁, rfl⟩
    · exact ⟨h₁, hs₁, rfl⟩
  obtain ⟨h₂, hs₂, hroutes⟩ := h₂
  obtain ⟨r₂, hr₂, hpipe⟩ := Looks.get (fun id => (look₁ id).symm) hon.route
  simp only [Route.pipe, Prod.mk.injEq] at hpipe
  have hr₂' : b₂.routeOf r.routeId = some r₂ := by
    unfold Broker.routeOf
    rw [hroutes]
    exact hr₂
  have hid : r₂.routeId = r.routeId := id_of_routeOf hr₂'
  obtain ⟨c₂, k₂, hl₂⟩ := hs₂.linked (r := r₂) (by rw [hid]; exact hr₂')
  have hsame : b₂.discardQueuedClientData r = b₂.discardQueuedClientData r₂ := by
    unfold Broker.discardQueuedClientData Broker.releaseHostToClient
    rw [hid, hpipe.1.1, hpipe.1.2.2]
  rw [hsame]
  exact (h₂.discardClient hs₂ hl₂).settled (.setRoute _ _ fun r => ⟨rfl, rfl⟩)

theorem settled_activate (C : Config) (c : Carrier) (hello : HostHello) (previous : Option Carrier) (b : Broker) :
    Settled b (b.activate C c hello previous) := by
  obtain ⟨hr, hk, _, hf⟩ := activate_rest C c hello previous b
  refine ⟨?_, ?_, by rw [hk], hf.ge⟩
  · intro s
    unfold Broker.carrierOf
    rw [activate_carriers]
    exact @Looks.update _ _ Carrier.books Carrier.serial _ _ _ (by exact fun _ => rfl) (by exact fun _ _ => rfl) s
  · intro id
    unfold Broker.routeOf
    rw [hr]

theorem settled_withdraw (e : Extension) (b : Broker) : Settled b (b.withdrawOptionalCapability e) := by
  unfold Broker.withdrawOptionalCapability
  split
  · exact .refl b
  · refine { Settled.refl b with routes := fun id => ?_ }
    show (Keyed.find Route.routeId id (b.routes.map _)).map _ = _
    rw [Keyed.find_map fun r => by split <;> rfl, Option.map_map]
    congr 1
    funext r
    simp only [Function.comp]
    split <;> rfl

/-- **Every move keeps the books balanced.** -/
theorem Move.balanced (m : Move C P D b D' b') (hs : Sound D b) (h : Balanced b) : Balanced b' := by
  have still : ∀ {b' : Broker} {f : Carrier → Carrier} (s : Nat), b' = b.setCarrier s f →
      (∀ c, (f c).serial = c.serial ∧ (f c).books = c.books) → Balanced b' := fun s heq hf => heq ▸ h.settled (.setCarrier b s hf)
  cases m with
  | quiet hq => exact h.settled (.of_quiet hq)
  | mark => exact h
  | unmark => exact h
  | attach t a i => exact h.attach t a i
  | enroll => exact h.settled ⟨.update (by exact fun _ => rfl) (by exact fun _ _ => rfl), .refl _, rfl, Nat.le_refl _⟩
  | rebase => exact still _ rfl (by exact fun _ => ⟨rfl, rfl⟩)
  | @activate _ _ c hello previous => exact h.settled (settled_activate C c hello previous b)
  | offline => exact h.settled ⟨.refl _, .refl _, rfl, Nat.le_refl _⟩
  | unregister => exact h.settled ⟨.refl _, .refl _, rfl, Nat.le_refl _⟩
  | forget => exact still _ rfl (by exact fun _ => ⟨rfl, rfl⟩)
  | retire => exact still _ rfl (by exact fun _ => ⟨rfl, rfl⟩)
  | discard hc _ hroutes => exact h.discard hc hroutes
  | detach => exact still _ rfl (by exact fun _ => ⟨rfl, rfl⟩)
  | openRoute connectionId a i connectorId _ hc _ _ _ _ free _ room =>
    exact h.openRoute hs connectionId a i connectorId hc free room
  | drop hr => exact h.drop hs hr
  | welcome => exact h.settled (.setRoute b _ (by exact fun _ => ⟨rfl, rfl⟩))
  | close withControl hon => exact h.close hs hon withControl
  | @unbind _ _ c r reason hon closing room =>
    refine h.pushControl hs hon.carrier rfl room fun id hid => ?_
    obtain rfl := Option.some.inj hid
    obtain ⟨k, hl⟩ := Linked.of_on hs hon
    exact ⟨hs.old_route hon.route, fun _ _ => hl.listed⟩
  | control frame hc _ _ room => exact h.pushControl hs hc rfl room fun id hid => nomatch hid
  | forward f bytes _ hon _ _ _ fits room =>
    exact (h.pushEntry C hs hon fits room).settled (.noteRequest _ f _)
  | make made charged hon _ fits room =>
    obtain ⟨k, hl⟩ := Linked.of_on hs hon
    exact (h.pushFrame hs hl fits room).settled (.emit _ _)
  | @accept _ _ c r f bytes out _ hon _ _ _ _ fits room =>
    have hconsumed : Settled b (b.consumeHostFrame r.routeId f) := .setRoute b _ (by exact fun _ => ⟨rfl, rfl⟩)
    have hs₁ : Sound D (b.consumeHostFrame r.routeId f) := (Kept.setRoute b _ (by exact fun _ => ⟨rfl, rfl⟩)).sound hs
    obtain ⟨c₁, k₁, hl⟩ := hs₁.linked (r := { r with
      expectedHostToClientSeq := r.expectedHostToClientSeq + 1
      inFlightRequestIds := if f.kind = .response then r.inFlightRequestIds.filter (fun id => some id ≠ f.requestId)
        else r.inFlightRequestIds }) (routeOf_consume f hon.route)
    obtain rfl : c₁ = c := Option.some.inj (hl.attached.symm.trans
      (hs.carrierAt_iff.mpr ⟨hon.carrier, hon.attached, hon.transport⟩))
    exact ((h.settled hconsumed).pushFrame hs₁ hl fits fun _ => room).settled (.emit _ _)
  | consume => exact (h.settled (.setRoute b _ (by exact fun _ => ⟨rfl, rfl⟩))).settled (.emit _ _)
  | @dispatchControl _ _ c e rest hc _ head =>
    have hat := h.carriers _ c hc
    refine h.dispatch hs hc (fun _ => (Carrier.face_invalidateIfEmpty _).1) (hat.tidy.dispatchControl hat.deliveries head) ?_
    exact Carrier.inFlight_invalidateIfEmpty _
  | @dispatchData _ _ c routeId e rest hc _ turn head =>
    have hat := h.carriers _ c hc
    refine h.dispatch hs hc (fun c => (c.face_popData routeId rest).1) (hat.tidy.dispatchData hat.deliveries turn head) ?_
    unfold Carrier.popData
    split
    · exact Carrier.inFlight_invalidateIfEmpty _
    · rfl
  | skip routeId hc turn none' => exact absurd none' ((h.carriers _ _ hc).tidy.no_skip turn)
  | acknowledge e hc he => exact h.acknowledge hs hc he
  | @hand _ _ client r e rest hclient head hr _ own named =>
    obtain ⟨c, k, hl⟩ := hs.linked (r := r) (by rw [id_of_routeOf hr]; exact hr)
    obtain rfl : k = client := Option.some.inj (hl.client.symm.trans (own ▸ hclient))
    exact (h.hand hs hl head _ (by exact fun _ => rfl) ⟨rfl, rfl, rfl⟩).settled (.emit _ _)
  | @received _ _ client r e hclient he hr =>
    obtain ⟨r', hr', hk⟩ := hs.client_route hclient
    have hname : e.route = client.routeId :=
      (h.clients client (Keyed.mem_of_find hclient)).route _ (List.mem_append_right _ (List.mem_map_of_mem he))
    rw [hname, hr'] at hr
    obtain rfl := Option.some.inj hr
    obtain ⟨c, k, hl⟩ := hs.linked (r := r') (by rw [id_of_routeOf hr']; exact hr')
    obtain rfl : k = client := Option.some.inj (hl.client.symm.trans (hk ▸ hclient))
    exact h.received hs hl he
  | @lost _ _ client e hclient he hr =>
    obtain ⟨r, hr', _⟩ := hs.client_route hclient
    have hname : e.route = client.routeId :=
      (h.clients client (Keyed.mem_of_find hclient)).route _ (List.mem_append_right _ (List.mem_map_of_mem he))
    rw [hname, hr'] at hr
    cases hr
  | clock d time => exact h.settled (.setRoute b _ fun r => by cases d <;> exact ⟨rfl, rfl⟩)
  | pause d => exact (h.settled (.setRoute b _ fun r => by cases d <;> exact ⟨rfl, rfl⟩)).settled (.emit _ _)
  | resume d => exact (h.settled (.setRoute b _ fun r => by cases d <;> exact ⟨rfl, rfl⟩)).settled (.emit _ _)
  | withdraw e => exact h.settled (settled_withdraw e b)
  | violate => exact h.settled (.emit _ _)

theorem Path.balanced (p : Path C P D b D' b') (hs : Sound D b) (h : Balanced b) : Balanced b' := by
  induction p with
  | refl => exact h
  | step first _ ih => exact ih (first.sound hs) (first.balanced hs h)

theorem run_balanced (C : Config) (ops : List Op) {b : Broker} (hs : Sound [] b) (h : Balanced b) : Balanced (run C ops b) := by
  induction ops generalizing b with
  | nil => exact h
  | cons op ops ih => exact ih ((op.walk hs).sound hs) ((op.walk hs).balanced hs h)

theorem Balanced.start (ready : List Extension) (replies : Nat → Reply) : Balanced (Broker.start ready replies) :=
  ⟨(fun _ _ hc => nomatch hc), (fun _ _ hr => nomatch hr), fun _ hk => nomatch hk⟩

theorem credit_eq (b : Broker) (ids : List Nat) :
    b.credit ids = charge ((b.clients.filter fun k => k.routeId ∈ ids).flatMap Client.load) := by
  unfold Broker.credit
  induction b.clients with
  | nil => rfl
  | cons k l ih =>
    rw [List.map_cons, List.sum_cons, ih]
    by_cases hk : k.routeId ∈ ids
    · rw [if_pos hk, List.filter_cons_of_pos (by simpa using hk), List.flatMap_cons, charge_append]
    · rw [if_neg hk, List.filter_cons_of_neg (by simpa using hk), zero_add]

end

/-- **The buffers of the broker are accounted for exactly.** -/
structure Accounted (b : Broker) : Prop where
  carriers : ∀ s c, b.carrierOf s = some c →
    c.queuedBytes = wireSum (c.controlQueue ++ c.dataQueues.flatMap DataQueue.entries) ∧
    c.inFlightBytes = wireSum (c.inFlight.map InFlightCarrierFrame.toQueuedCarrierFrame) ∧
    c.hostToClientBufferedBytes = charge ((b.clients.filter fun k => k.routeId ∈ c.routeIds).flatMap Client.load)
  routes : ∀ id r, b.routeOf id = some r → ∃ c k, b.carrierAt r.carrierTransportId = some c ∧
    b.clientAt r.connectionId = some k ∧
    r.clientToHostFrames = (c.load id).length ∧ r.clientToHostBufferedBytes = rawSum (c.load id) ∧
    r.hostToClientFrames = k.load.length ∧ r.hostToClientBufferedBytes = byteSum k.load
  /-- No counter is below zero or above its limit, and data leaves the control reserve free. -/
  carriersWithin : ∀ s c, b.carrierOf s = some c → 0 ≤ c.queuedBytes ∧ 0 ≤ c.inFlightBytes ∧ 0 ≤ c.hostToClientBufferedBytes ∧
    c.queuedBytes + c.inFlightBytes + c.hostToClientBufferedBytes ≤ carrierBufferedBytes ∧
    wireSum c.data + c.hostToClientBufferedBytes ≤ (carrierBufferedBytes : Int) - carrierControlReserveBytes
  routesWithin : ∀ id r, b.routeOf id = some r →
    (0 ≤ r.clientToHostFrames ∧ r.clientToHostFrames ≤ maxQueuedRouteFrames) ∧
    (0 ≤ r.clientToHostBufferedBytes ∧ r.clientToHostBufferedBytes ≤ routeBufferedBytesPerDirection) ∧
    (0 ≤ r.hostToClientFrames ∧ r.hostToClientFrames ≤ maxQueuedRouteFrames) ∧
    (0 ≤ r.hostToClientBufferedBytes ∧ r.hostToClientBufferedBytes ≤ routeBufferedBytesPerDirection)
  /-- A release of what a client holds, or of what is in flight to its host, is not clamped. -/
  unclamped : ∀ id r c k, b.routeOf id = some r → b.carrierAt r.carrierTransportId = some c →
    b.clientAt r.connectionId = some k →
    (∀ entries rest, k.load.Perm (entries ++ rest) →
      r.releasing entries = { r with
        hostToClientBufferedBytes := r.hostToClientBufferedBytes - byteSum entries
        hostToClientFrames := r.hostToClientFrames - entries.length } ∧
      c.releasing entries = { c with hostToClientBufferedBytes := c.hostToClientBufferedBytes - charge entries }) ∧
    ∀ e ∈ c.inFlight, e.carries id = true →
      (e.rawBytes : Int) ≤ r.clientToHostBufferedBytes ∧ 1 ≤ r.clientToHostFrames
  order : ∀ s c, b.carrierOf s = some c → c.dataOrder.Nodup ∧ ∀ id, id ∈ c.dataOrder ↔ c.entries id ≠ []
  drained : (∀ s c, b.carrierOf s = some c → c.held = []) → (∀ k ∈ b.clients, k.load = []) →
    (∀ s c, b.carrierOf s = some c → c.queuedBytes = 0 ∧ c.inFlightBytes = 0 ∧ c.hostToClientBufferedBytes = 0) ∧
    ∀ id r, b.routeOf id = some r → r.clientToHostFrames = 0 ∧ r.clientToHostBufferedBytes = 0 ∧ r.hostToClientFrames = 0 ∧
      r.hostToClientBufferedBytes = 0

section
variable {D : List Nat} {b : Broker} {c : Carrier} {r : Route} {k : Client} {id : Nat}

theorem Balanced.route (h : Balanced b) (hs : Sound D b) (hr : b.routeOf id = some r) : ∃ c k, Linked b c r k ∧
    r.clientToHostFrames = (c.load id).length ∧ r.clientToHostBufferedBytes = rawSum (c.load id) ∧
    r.hostToClientFrames = k.load.length ∧ r.hostToClientBufferedBytes = byteSum k.load := by
  have hid := id_of_routeOf hr
  obtain ⟨c, k, hl⟩ := hs.linked (r := r) (by rw [hid]; exact hr)
  have hout := (h.carriers _ c hl.carrier).outgoing id r (hid ▸ hl.listed) hr
  have hin := (h.routes id r hr).incoming k hl.client
  simp only [Route.outgoing, Route.incoming, Prod.mk.injEq] at hout hin
  exact ⟨c, k, hl, hout.1, hout.2, hin.1, hin.2⟩

theorem Balanced.unclamped (h : Balanced b) (hl : Linked b c r k) {entries rest : List QueuedClientFrame}
    (hp : k.load.Perm (entries ++ rest)) :
    r.releasing entries = { r with
      hostToClientBufferedBytes := r.hostToClientBufferedBytes - byteSum entries
      hostToClientFrames := r.hostToClientFrames - entries.length } ∧
    c.releasing entries = { c with hostToClientBufferedBytes := c.hostToClientBufferedBytes - charge entries } := by
  obtain ⟨hframes, hbytes, hcharge⟩ := h.held hl
  have hlen := hp.length_eq
  have hsum := byteSum_perm hp
  have hch := charge_perm hp
  rw [List.length_append] at hlen
  rw [byteSum_append] at hsum
  rw [charge_append] at hch
  have hrest := byteSum_nonneg rest
  have hcrest := charge_nonneg rest
  constructor
  · unfold Route.releasing
    rw [release_frames (by omega), release_bytes (by omega)]
  · unfold Carrier.releasing
    rw [release_bytes (by unfold charge at *; omega)]
    rfl

theorem Balanced.accounted (h : Balanced b) (hs : Sound D b) : Accounted b where
  carriers s c hc := by
    have hat := h.carriers s c hc
    exact ⟨hat.tidy.queued, hat.tidy.flying, hat.credit.trans (credit_eq b _)⟩
  routes id r hr := by
    obtain ⟨c, k, hl, hrest⟩ := h.route hs hr
    exact ⟨c, k, hl.attached, hl.client, hrest⟩
  carriersWithin s c hc := by
    have hat := h.carriers s c hc
    refine ⟨hat.tidy.queued ▸ wireSum_nonneg _, hat.tidy.flying ▸ wireSum_nonneg _, ?_, hat.within.total, hat.within.data⟩
    rw [hat.credit, credit_eq]
    exact charge_nonneg _
  routesWithin id r hr := by
    obtain ⟨c, k, _, h1, h2, h3, h4⟩ := h.route hs hr
    have hw := (h.routes id r hr).within
    exact ⟨⟨by omega, hw.sentFrames⟩, ⟨h2 ▸ rawSum_nonneg _, hw.sentBytes⟩, ⟨by omega, hw.dueFrames⟩,
      ⟨h4 ▸ byteSum_nonneg _, hw.dueBytes⟩⟩
  unclamped id r c k hr hc hk := by
    obtain ⟨c', k', hl, h1, h2, _⟩ := h.route hs hr
    obtain rfl := Option.some.inj (hl.attached.symm.trans hc)
    obtain rfl := Option.some.inj (hl.client.symm.trans hk)
    refine ⟨fun entries rest hp => h.unclamped hl hp, fun e he hcarries => ?_⟩
    have hmem : e.toQueuedCarrierFrame ∈ c'.load id :=
      List.mem_filter.mpr ⟨List.mem_append_right _ (List.mem_map_of_mem he), hcarries⟩
    have hpos := List.length_pos_of_mem hmem
    have hle : (e.rawBytes : Int) ≤ rawSum (c'.load id) := by
      have hp := rawSum_perm (List.perm_cons_erase hmem)
      rw [rawSum_cons] at hp
      have := rawSum_nonneg ((c'.load id).erase e.toQueuedCarrierFrame)
      omega
    exact ⟨by omega, by omega⟩
  order s c hc := by
    have ht := (h.carriers s c hc).tidy
    exact ⟨ht.order ▸ ht.once, Carrier.dataQueue_keys ht⟩
  drained hcarriers hclients := by
    refine ⟨fun s c hc => ?_, fun id r hr => ?_⟩
    · have hat := h.carriers s c hc
      obtain ⟨hqueued, hflying⟩ := List.append_eq_nil_iff.mp (hcarriers s c hc)
      refine ⟨by rw [hat.tidy.queued, hqueued, wireSum_nil], by rw [hat.tidy.flying, hflying, wireSum_nil], ?_⟩
      rw [hat.credit, credit_eq]
      have hnil : (b.clients.filter fun k => k.routeId ∈ c.routeIds).flatMap Client.load = [] :=
        List.flatMap_eq_nil_iff.mpr fun k hk => hclients k (List.mem_filter.mp hk).1
      rw [hnil]
      rfl
    · obtain ⟨c, k, hl, h1, h2, h3, h4⟩ := h.route hs hr
      have hheld : c.load id = [] := by
        unfold Carrier.load
        rw [hcarriers _ c hl.carrier, List.filter_nil]
      rw [hheld] at h1 h2
      rw [hclients k (Keyed.mem_of_find hl.client)] at h3 h4
      exact ⟨h1, h2, h3, h4⟩

end

/-- **Every byte and frame is on its counters, in every state of every run**, those within an operation included. -/
theorem buffers_accounted (C : Config) (ready : List Extension) (replies : Nat → Reply) (ops : List Op) {P : Permits}
    {D : List Nat} {b : Broker} (p : Path C P [] (run C ops (Broker.start ready replies)) D b) : Accounted b := by
  have hs := run_sound C ops (Sound.start ready replies)
  have h := run_balanced C ops (Sound.start ready replies) (.start ready replies)
  exact (p.balanced hs h).accounted (p.sound hs)

theorem buffers_accounted_registered : Accounted (run sampleConfig sampleRegister sampleStart) :=
  buffers_accounted sampleConfig [] (fun _ => ⟨5, false⟩) sampleRegister (P := .ending) .refl

end Relay
end TmuxWorktree

import TmuxWorktree.Stored.Parser
/-!
# Tags — what the parser of the stored state lets through (`store.ts`)

The parser looks at every member that its type declares.  It looks closely at each but the names that it compares through
`String`: a state it accepts is one of its type exactly when those are strings.
-/
namespace TmuxWorktree
namespace Stored

open Utf16 Grammar
open Request (Record field isRecord exactKeys)

/-! ## Tests that hold -/

@[simp] theorem allOf_nil : allOf [] = .ok true := rfl

@[simp] theorem allOf_cons {t : Test} {ts : List Test} : allOf (t :: ts) = .ok true ↔ t = .ok true ∧ allOf ts = .ok true := by
  cases t with
  | error e => simp [allOf, bind, Except.bind]
  | ok b => cases b <;> simp [allOf, bind, Except.bind, pure, Except.pure]

theorem allOf_map {test : Value → Test} {items : List Value} :
    allOf (items.map test) = .ok true ↔ ∀ item ∈ items, test item = .ok true := by
  induction items with
  | nil => simp
  | cons item items ih => simp [ih]

theorem isRecord_eq {v : Value} {record : Record} : isRecord v = some record ↔ v = .object record := by
  cases v <;> simp [isRecord]

@[simp] theorem onRecord_eq {v : Option Value} {test : Record → Test} :
    onRecord v test = .ok true ↔ ∃ record, v = some (.object record) ∧ test record = .ok true := by
  unfold onRecord
  cases v with
  | none => simp [pure, Except.pure]
  | some v => cases v <;> simp [isRecord, pure, Except.pure]

@[simp] theorem onText_eq {v : Option Value} {test : Text → Bool} :
    onText v test = .ok true ↔ ∃ s, v = some (.string s) ∧ test s = true := by
  unfold onText
  split <;> simp_all [pure, Except.pure]

@[simp] theorem whenPresent_eq {v : Option Value} {test : Value → Test} :
    whenPresent v test = .ok true ↔ ∀ u, v = some u → test u = .ok true := by
  cases v <;> simp [whenPresent, pure, Except.pure]

@[simp] theorem isArrayOf_eq {v : Option Value} {test : Value → Test} :
    isArrayOf v test = .ok true ↔ ∃ items, v = some (.array items) ∧ ∀ item ∈ items, test item = .ok true := by
  unfold isArrayOf
  split <;> simp_all [allOf_map, pure, Except.pure]

theorem equals_eq {v : Option Value} {name : String} : equals v name = true ↔ v = some (.string (ofString name)) := by
  unfold equals
  split <;> simp_all

theorem includes_string {names : List String} {s : Text} :
    includes names (some (.string s)) = .ok true ↔ ∃ name ∈ names, s = ofString name := by
  simp only [includes, jsString, bind, Except.bind, pure, Except.pure, Except.ok.injEq, List.any_eq_true, decide_eq_true_eq]
  exact exists_congr fun name => and_congr_right fun _ => eq_comm

/-! ## Members -/

@[simp] theorem member_object {record : Record} {key : String} : member (some (.object record)) key = field record key := rfl

@[simp] theorem member_none {key : String} : member none key = none := rfl

@[simp] theorem interface_object {members : List Member} {record : Record} :
    interface members (.object record) ↔ ∀ m ∈ members, m.In record := by
  simp [interface]

@[simp] theorem required_in {name : String} {shape : Shape} {record : Record} :
    (required name shape).In record ↔ ∃ v, field record name = some v ∧ shape v := by
  simp [required, Member.In]

@[simp] theorem optional_in {name : String} {shape : Shape} {record : Record} :
    (optional name shape).In record ↔ ∀ v, field record name = some v → shape v := by
  unfold optional Member.In
  cases field record name <;> simp

theorem field_other {record : Record} {must may : List String} (h : exactKeys record must may = true) (key : String)
    (hkey : (must ++ may).all (fun k => ofString k ≠ ofString key) = true) : field record key = none := by
  unfold exactKeys at h
  rw [Bool.and_eq_true, List.all_eq_true, List.all_eq_true] at h
  unfold field
  rw [Option.map_eq_none_iff, List.find?_eq_none]
  intro f hf hname
  obtain ⟨k, hk, heq⟩ := List.any_eq_true.mp (h.2 f (List.mem_reverse.mp hf))
  have hne := List.all_eq_true.mp hkey k hk
  rw [decide_eq_true_eq] at hname heq hne
  exact hne (heq.symm.trans hname)

theorem field_required {record : Record} {must may : List String} (h : exactKeys record must may = true) (key : String)
    (hkey : key ∈ must) : ∃ v, field record key = some v := by
  unfold exactKeys at h
  rw [Bool.and_eq_true, List.all_eq_true] at h
  exact Option.isSome_iff_exists.mp (h.1 key hkey)

/-! ## The names that are compared through `String` -/

def tag (value : Option Value) (key : String) : List Value := (member value key).toList

def ownershipTags (value : Option Value) : List Value :=
  let handoff := member value "handoff"
  tag (member value "owner") "kind" ++ tag (member handoff "nextOwner") "kind" ++ tag (member handoff "drain") "disposition"

def targetTags (target : Value) : List Value :=
  tag (some target) "lifecycle" ++ ownershipTags (member (some target) "ownership") ++
    (elements (member (some target) "completedOperations")).flatMap (fun operation => tag (some operation) "kind") ++
    tag (member (some target) "inFlight") "kind" ++ tag (member (some target) "recovery") "reason" ++
    tag (member (some target) "recovery") "previousOwnerKind"

/-- **The values that the parser compares with names through `String`.** -/
def tags (state : Value) : List Value := (elements (member (some state) "targets")).flatMap targetTags

/-! ## Types -/

@[simp] theorem tag_none {key : String} : tag none key = [] := rfl

theorem tag_object {record : Record} {key : String} {v : Value} (h : field record key = some v) :
    tag (some (.object record)) key = [v] := by
  simp [tag, h]

theorem literals_of_includes {names : List String} {v : Value} (h : includes names (some v) = .ok true) :
    literals names v ↔ text v := by
  constructor
  · rintro ⟨name, -, rfl⟩
    exact ⟨_, rfl⟩
  · rintro ⟨s, rfl⟩
    obtain ⟨name, hname, rfl⟩ := includes_string.mp h
    exact ⟨name, hname, rfl⟩

@[simp] theorem text_string (s : Text) : text (.string s) := ⟨s, rfl⟩

theorem number_of_cursor {v : Value} (h : isCursor v = .ok true) : number v := by
  cases v with
  | number d => exact ⟨d, rfl⟩
  | _ => cases h

theorem owner_shape {v : Value} (h : isOwner (some v) = .ok true) :
    terminalControlOwner v ↔ ∀ t ∈ tag (some v) "kind", text t := by
  simp only [isOwner, onRecord_eq, Option.some.injEq, allOf_cons, allOf_nil, Except.ok.injEq, and_true] at h
  obtain ⟨record, rfl, hkeys, hkind, hid⟩ := h
  obtain ⟨kind, hk⟩ := field_required hkeys "kind" (by simp)
  obtain ⟨id, hid, -⟩ := onText_eq.mp hid
  rw [hk] at hkind
  rw [tag_object hk]
  simp [terminalControlOwner, hk, hid, literals_of_includes hkind, text]

theorem drainProof_shape {v : Value} (h : isDrainProof (some v) = .ok true) :
    terminalControlDrainProof v ↔ ∀ t ∈ tag (some v) "disposition", text t := by
  simp only [isDrainProof, onRecord_eq, Option.some.injEq, allOf_cons, allOf_nil, Except.ok.injEq, and_true] at h
  obtain ⟨record, rfl, hkeys, hdisposition, hid, hat⟩ := h
  obtain ⟨disposition, hd⟩ := field_required hkeys "disposition" (by simp)
  obtain ⟨id, hid, -⟩ := onText_eq.mp hid
  obtain ⟨at', hat, -⟩ := onText_eq.mp hat
  rw [hd] at hdisposition
  rw [tag_object hd]
  simp [terminalControlDrainProof, hd, hid, hat, literals_of_includes hdisposition, text]

theorem handoff_shape {v : Value} (h : isHandoff (some v) = .ok true) :
    terminalControlHandoff v ↔
      ∀ t ∈ tag (member (some v) "nextOwner") "kind" ++ tag (member (some v) "drain") "disposition", text t := by
  simp only [isHandoff, onRecord_eq, Option.some.injEq, allOf_cons, allOf_nil, Except.ok.injEq, and_true, whenPresent_eq] at h
  obtain ⟨record, rfl, hkeys, hid, howner, hat, hdrain⟩ := h
  obtain ⟨owner, ho⟩ := field_required hkeys "nextOwner" (by simp)
  obtain ⟨id, hid, -⟩ := onText_eq.mp hid
  obtain ⟨at', hat, -⟩ := onText_eq.mp hat
  rw [ho] at howner
  have hshape := owner_shape howner
  rw [member_object, member_object, ho, List.forall_mem_append, ← hshape]
  cases hd : field record "drain" with
  | none => simp [terminalControlHandoff, ho, hid, hat, hd, text]
  | some drain => simp [terminalControlHandoff, ho, hid, hat, hd, text, drainProof_shape (hdrain drain hd)]

theorem states_differ : ofString "HELD" ≠ ofString "FREE" ∧ ofString "DRAINING" ≠ ofString "FREE" ∧
    ofString "DRAINING" ≠ ofString "HELD" := by
  decide

theorem ownership_shape {v : Value} (h : isOwnership (some v) = .ok true) :
    terminalControlOwnership v ↔ ∀ t ∈ ownershipTags (some v), text t := by
  simp only [isOwnership, onRecord_eq, Option.some.injEq, allOf_cons, allOf_nil, and_true] at h
  obtain ⟨record, rfl, hfence, h⟩ := h
  obtain ⟨fence, hfence, -⟩ := onText_eq.mp hfence
  split at h
  next hstate =>
    rw [Except.ok.injEq] at h
    rw [equals_eq] at hstate
    have howner := field_other h "owner" (by decide)
    have hhandoff := field_other h "handoff" (by decide)
    simp [ownershipTags, howner, hhandoff, terminalControlOwnership, hstate, hfence, text, literals]
  next =>
    split at h
    next hstate =>
      simp only [allOf_cons, allOf_nil, Except.ok.injEq, and_true] at h
      obtain ⟨hkeys, howner, hid, hat⟩ := h
      rw [equals_eq] at hstate
      have hhandoff := field_other hkeys "handoff" (by decide)
      obtain ⟨owner, ho⟩ := field_required hkeys "owner" (by simp)
      obtain ⟨id, hid, -⟩ := onText_eq.mp hid
      obtain ⟨at', hat, -⟩ := onText_eq.mp hat
      rw [ho] at howner
      have hshape := owner_shape howner
      simp only [ownershipTags, member_object, ho, hhandoff]
      rw [List.append_assoc, List.forall_mem_append, ← hshape]
      simp [terminalControlOwnership, hstate, hfence, hid, hat, ho, hhandoff, text, literals, states_differ]
    next =>
      split at h
      next hstate =>
        simp only [allOf_cons, allOf_nil, Except.ok.injEq, and_true] at h
        obtain ⟨hkeys, howner, hid, hat, hhandoff⟩ := h
        rw [equals_eq] at hstate
        obtain ⟨owner, ho⟩ := field_required hkeys "owner" (by simp)
        obtain ⟨handoff, hh⟩ := field_required hkeys "handoff" (by simp)
        obtain ⟨id, hid, -⟩ := onText_eq.mp hid
        obtain ⟨at', hat, -⟩ := onText_eq.mp hat
        rw [ho] at howner
        rw [hh] at hhandoff
        have hshape := owner_shape howner
        have hshape' := handoff_shape hhandoff
        simp only [ownershipTags, member_object, ho, hh]
        rw [List.append_assoc, List.forall_mem_append, ← hshape, ← hshape']
        simp [terminalControlOwnership, hstate, hfence, hid, hat, ho, hh, text, literals, states_differ]
      next => cases h

theorem text_of_stored {v : Option Value} {max : Nat} (h : isStoredString v max = .ok true) : ∀ u, v = some u → text u := by
  rintro u rfl
  obtain ⟨s, heq, -⟩ := onText_eq.mp h
  exact ⟨s, Option.some.inj heq⟩

theorem operation_shape {v : Value} (h : isOperation (some v) false = .ok true) :
    terminalControlOperationRecord v ↔ ∀ t ∈ tag (some v) "kind", text t := by
  simp only [isOperation, onRecord_eq, Option.some.injEq, allOf_cons, allOf_nil, Except.ok.injEq, and_true, whenPresent_eq,
    Bool.false_eq_true, if_false, Bool.false_or, Bool.or_eq_true, equals_eq] at h
  obtain ⟨record, rfl, hkeys, hid, howner, hfence, hhash, hkind, hat, hdisposition, hgeneration, hcursor⟩ := h
  obtain ⟨kind, hk⟩ := field_required hkeys "kind" (by simp)
  obtain ⟨id, hid, -⟩ := onText_eq.mp hid
  obtain ⟨owner, howner, -⟩ := onText_eq.mp howner
  obtain ⟨fence, hfence, -⟩ := onText_eq.mp hfence
  obtain ⟨hash, hhash, -⟩ := onText_eq.mp hhash
  obtain ⟨at', hat, -⟩ := onText_eq.mp hat
  have hdisposition : ∃ v, field record "disposition" = some v ∧ literals ["committed", "in-doubt"] v := by
    rcases hdisposition with hd | hd
    · exact ⟨_, hd, "committed", by simp, rfl⟩
    · exact ⟨_, hd, "in-doubt", by simp, rfl⟩
  rw [hk] at hkind
  rw [tag_object hk]
  simp [terminalControlOperationRecord, hk, hid, howner, hfence, hhash, hat, literals_of_includes hkind, hdisposition]
  exact fun _ => ⟨fun v hv => text_of_stored (hgeneration v hv) v rfl, fun v hv => number_of_cursor (hcursor v hv)⟩

theorem inFlight_shape {v : Value} (h : isOperation (some v) true = .ok true) :
    terminalControlInFlightOperation v ↔ ∀ t ∈ tag (some v) "kind", text t := by
  simp only [isOperation, onRecord_eq, Option.some.injEq, allOf_cons, allOf_nil, Except.ok.injEq, and_true, whenPresent_eq,
    if_true, Bool.true_or, true_and] at h
  obtain ⟨record, rfl, hkeys, hid, howner, hfence, hhash, hkind, hat, hgeneration, hcursor⟩ := h
  obtain ⟨kind, hk⟩ := field_required hkeys "kind" (by simp)
  obtain ⟨id, hid, -⟩ := onText_eq.mp hid
  obtain ⟨owner, howner, -⟩ := onText_eq.mp howner
  obtain ⟨fence, hfence, -⟩ := onText_eq.mp hfence
  obtain ⟨hash, hhash, -⟩ := onText_eq.mp hhash
  obtain ⟨at', hat, -⟩ := onText_eq.mp hat
  rw [hk] at hkind
  rw [tag_object hk]
  simp [terminalControlInFlightOperation, hk, hid, howner, hfence, hhash, hat, literals_of_includes hkind]
  exact fun _ => ⟨fun v hv => text_of_stored (hgeneration v hv) v rfl, fun v hv => number_of_cursor (hcursor v hv)⟩

theorem recovery_shape {v : Value} (h : isRecovery (some v) = .ok true) :
    terminalControlRecoveryRecord v ↔ ∀ t ∈ tag (some v) "reason" ++ tag (some v) "previousOwnerKind", text t := by
  simp only [isRecovery, onRecord_eq, Option.some.injEq, allOf_cons, allOf_nil, Except.ok.injEq, and_true, whenPresent_eq] at h
  obtain ⟨record, rfl, hkeys, hreason, hsince, hepoch, hprevious, hid⟩ := h
  obtain ⟨reason, hr⟩ := field_required hkeys "reason" (by simp)
  obtain ⟨since, hsince, -⟩ := onText_eq.mp hsince
  obtain ⟨epoch, hepoch, -⟩ := onText_eq.mp hepoch
  have hid : ∀ v, field record "operationId" = some v → text v := fun v hv => text_of_stored (hid v hv) v rfl
  rw [hr] at hreason
  rw [List.forall_mem_append, tag_object hr]
  cases hp : field record "previousOwnerKind" with
  | none =>
    have hno : tag (some (.object record)) "previousOwnerKind" = [] := by simp [tag, hp]
    simp [terminalControlRecoveryRecord, hr, hsince, hepoch, hp, literals_of_includes hreason, hno]
    exact fun _ => hid
  | some previous =>
    rw [tag_object hp]
    simp [terminalControlRecoveryRecord, hr, hsince, hepoch, hp, literals_of_includes hreason,
      literals_of_includes (hprevious previous hp)]
    exact fun _ _ => hid

theorem managedSession_shape {v : Value} (h : isManagedSession (some v) = .ok true) :
    interface [required "name" text, required "kind" (literals ["worktree", "terminal"]), required "createdAt" text] v := by
  simp only [isManagedSession, onRecord_eq, Option.some.injEq, allOf_cons, allOf_nil, Except.ok.injEq, and_true,
    Bool.or_eq_true, equals_eq] at h
  obtain ⟨record, rfl, -, hname, hkind, hat⟩ := h
  obtain ⟨name, hname, -⟩ := onText_eq.mp hname
  obtain ⟨at', hat, -⟩ := onText_eq.mp hat
  have hkind : ∃ v, field record "kind" = some v ∧ literals ["worktree", "terminal"] v := by
    rcases hkind with hk | hk
    · exact ⟨_, hk, "worktree", by simp, rfl⟩
    · exact ⟨_, hk, "terminal", by simp, rfl⟩
  simp [hname, hat, hkind]

theorem backend_shape {v : Value} (h : isBackend (some v) = .ok true) :
    interface [required "kind" (literals ["tmux"]), required "tmuxInstanceId" text] v := by
  simp only [isBackend, onRecord_eq, Option.some.injEq, allOf_cons, allOf_nil, Except.ok.injEq, and_true, equals_eq] at h
  obtain ⟨record, rfl, -, hkind, hid⟩ := h
  obtain ⟨id, hid, -⟩ := onText_eq.mp hid
  simp [hid, hkind, literals]

theorem target_shape {v : Value} (h : isTarget v = .ok true) : terminalControlTargetRecord v ↔ ∀ t ∈ targetTags v, text t := by
  simp only [isTarget, onRecord_eq, Option.some.injEq, allOf_cons, allOf_nil, Except.ok.injEq, and_true, whenPresent_eq,
    isArrayOf_eq] at h
  obtain ⟨record, rfl, hkeys, hid, hlifecycle, hsession, hbackend, hgeneration, hownership, hrevision, hcompleted, hflight, -, -,
    hrecovery, -, -, -, hat⟩ := h
  obtain ⟨lifecycle, hl⟩ := field_required hkeys "lifecycle" (by simp)
  obtain ⟨session, hs⟩ := field_required hkeys "managedSession" (by simp)
  obtain ⟨backend, hb⟩ := field_required hkeys "backend" (by simp)
  obtain ⟨ownership, ho⟩ := field_required hkeys "ownership" (by simp)
  obtain ⟨operations, hc, hoperations⟩ := hcompleted
  obtain ⟨id, hid, -⟩ := onText_eq.mp hid
  obtain ⟨generation, hgeneration, -⟩ := onText_eq.mp hgeneration
  obtain ⟨revision, hrevision, -⟩ := onText_eq.mp hrevision
  obtain ⟨at', hat, -⟩ := onText_eq.mp hat
  rw [hl] at hlifecycle
  rw [hs] at hsession
  rw [hb] at hbackend
  rw [ho] at hownership
  have hcompleted : (∀ t ∈ operations.flatMap fun operation => tag (some operation) "kind", text t) ↔
      arrayOf terminalControlOperationRecord (.array operations) := by
    simp only [List.forall_mem_flatMap, arrayOf, Value.array.injEq, exists_eq_left']
    exact forall₂_congr fun operation hmem => (operation_shape (hoperations operation hmem)).symm
  have hinFlight : (∀ t ∈ tag (field record "inFlight") "kind", text t) ↔
      ∀ v, field record "inFlight" = some v → terminalControlInFlightOperation v := by
    cases hf : field record "inFlight" with
    | none => simp
    | some v => simp [inFlight_shape (hflight v hf)]
  have hrecover : ((∀ t ∈ tag (field record "recovery") "reason", text t) ∧
      ∀ t ∈ tag (field record "recovery") "previousOwnerKind", text t) ↔
      ∀ v, field record "recovery" = some v → terminalControlRecoveryRecord v := by
    cases hf : field record "recovery" with
    | none => simp
    | some v => rw [← List.forall_mem_append, ← recovery_shape (hrecovery v hf)]; simp
  have hmembers : terminalControlTargetRecord (.object record) ↔ literals lifecycles lifecycle ∧
      terminalControlOwnership ownership ∧ (∀ v, field record "inFlight" = some v → terminalControlInFlightOperation v) ∧
      (∀ v, field record "recovery" = some v → terminalControlRecoveryRecord v) ∧
      arrayOf terminalControlOperationRecord (.array operations) := by
    simp only [terminalControlTargetRecord, interface_object, List.forall_mem_cons, required_in, optional_in, hl, hs, hb, ho, hc,
      hid, hgeneration, hrevision, hat, Option.some.injEq, exists_eq_left', text_string, managedSession_shape hsession,
      backend_shape hbackend, List.not_mem_nil, false_imp_iff, implies_true, true_and, and_true]
  simp only [targetTags, member_object, hc, elements, ho, List.forall_mem_append, and_assoc]
  rw [tag_object hl, ← ownership_shape hownership, hcompleted, hinFlight, hrecover, hmembers, literals_of_includes hlifecycle]
  simp only [List.forall_mem_singleton]
  exact and_congr_right fun _ => and_congr_right fun _ =>
    ⟨fun h => ⟨h.2.2, h.1, h.2.1⟩, fun h => ⟨h.2.1, h.2.2, h.1⟩⟩

/-! ## The state -/

theorem bind_ok {α β : Type} {x : Except Text α} {f : α → Except Text β} {b : β} (h : x >>= f = .ok b) :
    ∃ a, x = .ok a ∧ f a = .ok b := by
  cases x with
  | error e => cases h
  | ok a => exact ⟨a, rfl, h⟩

/-- What a state is that the parser accepts. -/
structure Accepted (value : Value) (record : Record) (targets : List Value) : Prop where
  value : value = .object record
  keys : exactKeys record ["version", "controlEpoch", "targets"] [] = true
  version : field record "version" = some (.number Request.one)
  epoch : isStoredString (field record "controlEpoch") 128 = .ok true
  array : Request.field record "targets" = some (.array targets)
  valid : ∀ target ∈ targets, isTarget target = .ok true
  ids : (targets.map fun target => memberText target "controlTargetId").Nodup

theorem parseVersion_ok {v : Option Value} : parseVersion v = .ok () ↔ v = some (.number Request.one) := by
  have hun {u : Value} : unsupported u ≠ .ok () := fun h => by
    obtain ⟨_, -, h⟩ := bind_ok h
    cases h
  unfold parseVersion
  split
  · split
    · simp_all [pure, Except.pure]
    · simp_all
  · simp_all
  · simp [thrown]

/-- **The states that the parser accepts**, which it gives back. -/
theorem parse_ok {value u : Value} :
    parseTerminalControlState value = .ok u ↔ u = value ∧ ∃ record targets, Accepted value record targets := by
  constructor
  · intro h
    unfold parseTerminalControlState at h
    split at h
    next record hrecord =>
      split at h
      next hkeys =>
        obtain ⟨_, hversion, h⟩ := bind_ok h
        obtain ⟨epoch, hepoch, h⟩ := bind_ok h
        cases epoch with
        | false => cases h
        | true =>
          obtain ⟨shapes, hshapes, h⟩ := bind_ok h
          cases shapes with
          | false => cases h
          | true =>
            obtain ⟨targets, harray, hvalid⟩ := isArrayOf_eq.mp hshapes
            simp only [Bool.not_true, Bool.false_eq_true, if_false, harray, elements] at h
            split at h
            next hids =>
              cases h
              exact ⟨rfl, record, targets, isRecord_eq.mp hrecord, hkeys, parseVersion_ok.mp hversion, hepoch, harray, hvalid, hids⟩
            next => cases h
      next => cases h
    next => cases h
  · rintro ⟨rfl, record, targets, h⟩
    have hshapes : isArrayOf (some (.array targets)) isTarget = .ok true := isArrayOf_eq.mpr ⟨targets, rfl, h.valid⟩
    unfold parseTerminalControlState
    rw [h.value]
    simp only [isRecord, h.keys, if_true, parseVersion_ok.mpr h.version, h.epoch, h.array, hshapes, bind, Except.bind, elements,
      Bool.not_true, Bool.false_eq_true, if_false, if_pos h.ids]
    rfl

/-- **An accepted state has its type exactly when the names in it are strings.** -/
theorem state_shape {v : Value} (h : parseTerminalControlState v = .ok v) :
    terminalControlState v ↔ ∀ t ∈ tags v, text t := by
  obtain ⟨-, record, targets, h⟩ := parse_ok.mp h
  obtain ⟨epoch, hepoch, -⟩ := onText_eq.mp h.epoch
  rw [h.value]
  simp only [tags, member_object, h.array, elements, List.forall_mem_flatMap]
  simp only [terminalControlState, interface_object, List.forall_mem_cons, required_in, h.version, hepoch, h.array, arrayOf,
    Option.some.injEq, exists_eq_left', Value.array.injEq, text_string]
  simp
  exact forall₂_congr fun target hmem => target_shape (h.valid target hmem)

end Stored
end TmuxWorktree

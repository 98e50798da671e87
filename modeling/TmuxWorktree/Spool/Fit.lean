import Mathlib.Data.List.Dedup
import TmuxWorktree.Spool.Written
/-!
# Fit — what the host holds fits the models of the app

The checks of the materialized state are stricter than those of the app's models.  So every record of a cut is one that
the app takes, the frame of a chunk is within the public limit, and the frames of a cut within the limit of a staging.
-/
namespace TmuxWorktree
namespace Spool

open Sync

/-! ## Ids -/

theorem requireRelayV2Id_of {value : String} (hne : value.toList ≠ []) (hbytes : value.utf8ByteSize ≤ 128)
    (hplain : ∀ c ∈ value.toList, isWhitespace c = false ∧ c ≠ Char.ofNat 0) : requireRelayV2Id value = true := by
  obtain ⟨c, rest, hcs⟩ := List.exists_cons_of_ne_nil hne
  have hnotAll : value.toList.all isWhitespace = false := by
    have hc := (hplain c (by rw [hcs]; exact List.mem_cons_self)).1
    rw [hcs, List.all_cons, hc]
    rfl
  have hdrop : ∀ cs : List Char, (∀ c ∈ cs, isWhitespace c = false) → cs.dropWhile isWhitespace = cs := by
    intro cs hcs
    cases cs with
    | nil => rfl
    | cons c cs => rw [List.dropWhile_cons, hcs c List.mem_cons_self]; rfl
  have htrimmed : trimmed value.toList = value.toList := by
    have hwhite : ∀ c ∈ value.toList, isWhitespace c = false := fun c hc => (hplain c hc).1
    unfold trimmed
    rw [hdrop _ hwhite, hdrop _ fun c hc => hwhite c (List.mem_reverse.mp hc), List.reverse_reverse]
  have hnul : hasNul value = false := by
    unfold hasNul
    rw [List.contains_eq_mem, decide_eq_false_iff_not]
    exact fun hmem => (hplain _ hmem).2 rfl
  simp [requireRelayV2Id, hnotAll, htrimmed, hnul, hbytes]

theorem plain_of_hex {c : Char} (h : (('0' ≤ c && c ≤ '9') || ('a' ≤ c && c ≤ 'f')) = true) :
    isWhitespace c = false ∧ c ≠ Char.ofNat 0 := by
  have hnat : 48 ≤ c.toNat ∧ c.toNat ≤ 102 := by
    simp only [Bool.or_eq_true, Bool.and_eq_true, decide_eq_true_eq, Char.le_def, UInt32.le_iff_toNat_le] at h
    have hzero : ('0' : Char).val.toNat = 48 := rfl
    have hnine : ('9' : Char).val.toNat = 57 := rfl
    have ha : ('a' : Char).val.toNat = 97 := rfl
    have hf : ('f' : Char).val.toNat = 102 := rfl
    rw [hzero, hnine, ha, hf] at h
    show 48 ≤ c.val.toNat ∧ c.val.toNat ≤ 102
    omega
  refine ⟨?_, ?_⟩
  · have hcontains : [0x20, 0xA0, 0x1680, 0x2028, 0x2029, 0x202F, 0x205F, 0x3000].contains c.toNat = false := by
      simp only [List.contains_eq_mem, decide_eq_false_iff_not, List.mem_cons, List.not_mem_nil, or_false]
      omega
    rw [isWhitespace, hcontains, Bool.or_false]
    simp only [Bool.or_eq_false_iff, Bool.and_eq_false_iff, decide_eq_false_iff_not]
    omega
  · rintro rfl
    have hzero : (Char.ofNat 0).toNat = 0 := rfl
    omega

/-- **An id that the host has issued is an id for the app.** -/
theorem requireRelayV2Id_issued {head value : String} (hissued : issued head value = true)
    (hbytes : value.utf8ByteSize ≤ 128) (hhead : (head.toList.all fun c => !isWhitespace c && c != Char.ofNat 0) = true) :
    requireRelayV2Id value = true := by
  simp only [issued, Bool.and_eq_true, decide_eq_true_eq, List.all_eq_true] at hissued
  obtain ⟨⟨htake, hlength⟩, hhex⟩ := hissued
  refine requireRelayV2Id_of (fun hnil => ?_) hbytes fun c hc => ?_
  · rw [hnil] at hlength
    simp at hlength
  · rw [← List.take_append_drop head.toList.length value.toList, htake] at hc
    rcases List.mem_append.mp hc with hc | hc
    · simpa using List.all_eq_true.mp hhead c hc
    · exact plain_of_hex (hhex c hc)

/-! ## Records -/

theorem assertString_iff {value : String} {maxBytes : Nat} :
    assertString value maxBytes = true ↔ value ≠ "" ∧ value.utf8ByteSize ≤ maxBytes ∧ hasNul value = false := by
  simp [assertString, and_assoc]

variable {m : MaterializedFields}

theorem project_ok {p : Project} (hname : assertString p.name 128 = true) (hpath : assertString p.path 4096 = true)
    (hbranch : p.branch.all (assertString · 255) = true) : p.ok = true := by
  rw [assertString_iff] at hname hpath
  have hbranch' : p.branch.all (fun b => b ≠ "" && b.utf8ByteSize ≤ 255 && !hasNul b) = true := by
    cases hb : p.branch with
    | none => rfl
    | some b =>
      rw [hb] at hbranch
      have := assertString_iff.mp hbranch
      simp [this]
  rw [Project.ok, hbranch']
  simp [hname, hpath]

theorem scope_ok {s : ScopeItem} (hvalid : validateScope s = true) (hissued : issued "scope_" s.scopeId = true) :
    (Record.scope s).ok = true := by
  simp only [validateScope, validProjects, Bool.and_eq_true, decide_eq_true_eq, List.all_eq_true] at hvalid
  obtain ⟨⟨hid, hdisplay⟩, ⟨hlength, hprojects⟩, hnames⟩ := hvalid
  rw [assertString_iff] at hid hdisplay
  have hrelay : requireRelayV2Id s.scopeId = true := requireRelayV2Id_issued hissued hid.2.1 rfl
  have hdedup : (s.projects.map Project.name).dedup.length = s.projects.length := by
    rw [hnames.dedup, List.length_map]
  rw [Record.ok, Bool.and_eq_true, List.all_eq_true]
  refine ⟨?_, fun p hp => ?_⟩
  · simp [ScopeItem.ok, hrelay, hdisplay, hlength, hdedup]
  · obtain ⟨⟨hname, hpath⟩, hbranch⟩ := hprojects p hp
    exact project_ok hname hpath hbranch

theorem session_ok {s : SessionItem} {scopeId : String} (hvalid : validateSession s scopeId = true)
    (hscope : requireRelayV2Id scopeId = true) (hissued : issued "ses_" s.sessionId = true) :
    (Record.session s).ok = true := by
  simp only [validateSession, Bool.and_eq_true, decide_eq_true_eq] at hvalid
  obtain ⟨⟨⟨⟨⟨⟨⟨⟨⟨⟨-, hsession⟩, hdisplay⟩, rfl⟩, hwindows⟩, hcreated⟩, hactivity⟩, hproject⟩, hlabel⟩, hcwd⟩, hkind⟩ := hvalid
  rw [assertString_iff] at hsession hdisplay
  have hrelay : requireRelayV2Id s.sessionId = true := requireRelayV2Id_issued hissued hsession.2.1 rfl
  have hshort : ∀ {o : Option String} {maxBytes : Nat}, o.all (assertString · maxBytes) = true →
      o.all (fun t => t.utf8ByteSize ≤ maxBytes && !hasNul t) = true ∧ (o.isSome = true → o.any (· ≠ "") = true) := by
    intro o maxBytes ho
    cases o with
    | none => simp
    | some t =>
      have := assertString_iff.mp ho
      simp [this]
  rw [Record.ok, SessionItem.ok, (hshort hproject).1, (hshort hlabel).1, (hshort hcwd).1]
  refine Bool.and_eq_true_iff.mpr ⟨by simp [hscope, hrelay, hdisplay, hwindows, hcreated, hactivity], ?_⟩
  cases hk : s.kind with
  | worktree =>
    rw [hk] at hkind
    have hboth := Bool.and_eq_true_iff.mp hkind
    exact Bool.and_eq_true_iff.mpr ⟨(hshort hproject).2 hboth.1, (hshort hcwd).2 hboth.2⟩
  | terminal =>
    rw [hk] at hkind
    have hboth := Bool.and_eq_true_iff.mp hkind
    exact Bool.and_eq_true_iff.mpr ⟨(hshort hlabel).2 hboth.1, (hshort hcwd).2 hboth.2⟩

/-- **Every record of a cut is one that the app takes.** -/
theorem cut_ok (h : m.valid = true) : ∀ r ∈ (projectMaterializedStateCut m).records, r.ok = true := by
  simp only [MaterializedFields.valid, Bool.and_eq_true, decide_eq_true_eq, List.all_eq_true] at h
  obtain ⟨⟨⟨⟨⟨-, -⟩, hrevisions⟩, hscopes⟩, -⟩, -⟩ := h
  intro r hr
  obtain ⟨scope, hscope, hr⟩ := List.mem_flatMap.mp hr
  rw [List.mem_insertionSort] at hscope
  obtain ⟨⟨hvalid, hissued⟩, hsessions⟩ := hscopes scope hscope
  have hok := scope_ok hvalid hissued
  have hid : requireRelayV2Id scope.item.scopeId = true := by
    rw [Record.ok, ScopeItem.ok] at hok
    simp only [Bool.and_eq_true] at hok
    exact hok.1.1.1.1.1
  rcases List.mem_cons.mp hr with rfl | hr
  · exact hok
  rcases List.mem_cons.mp hr with rfl | hr
  · simp [Record.ok, hid, hrevisions scope hscope]
  · obtain ⟨s, hs, rfl⟩ := List.mem_map.mp hr
    rw [List.mem_insertionSort] at hs
    obtain ⟨hvalidSession, hissuedSession⟩ := hsessions s hs
    exact session_ok hvalidSession hid hissuedSession

/-! ## Frames -/

theorem utf8ByteSize_le (s : String) : s.utf8ByteSize ≤ 4 * s.toList.length := by
  have hsum : ∀ l : List Char, (l.map Char.utf8Size).sum ≤ 4 * l.length := by
    intro l
    induction l with
    | nil => simp
    | cons c rest ih =>
      have := c.utf8Size_le_four
      rw [List.map_cons, List.sum_cons, List.length_cons]
      omega
  have hs := hsum s.toList
  rwa [← Json.utf8ByteSize_ofList, String.ofList_toList] at hs

theorem counter_bytes {n : Nat} (h : n ≤ unsignedCounterMax) : (toString n).utf8ByteSize ≤ 80 := by
  have hle := utf8ByteSize_le (toString n)
  have hlength : (toString n).toList.length ≤ 20 := by
    rw [Nat.toString_eq_ofList_toDigits, String.toList_ofList]
    refine (Nat.length_toDigits_le_iff (by decide) (by decide)).mpr (Nat.lt_of_le_of_lt h (by decide))
  omega

theorem quoted_bytes {s : String} {maxBytes : Nat} (h : s.utf8ByteSize ≤ maxBytes) :
    ((s.toList.flatMap Json.escape).map Char.utf8Size).sum ≤ 6 * maxBytes := by
  have := Json.str_bytes s
  rw [Json.bytes] at this
  omega

namespace Delivery

variable {d : Delivery}

/-- What a frame holds beside its records is short. -/
structure Short (d : Delivery) : Prop where
  requestId : d.requestId.utf8ByteSize ≤ 128
  hostId : d.context.hostId.utf8ByteSize ≤ 128
  hostEpoch : d.served.hostEpoch.utf8ByteSize ≤ 128
  snapshotRequestId : d.served.snapshotRequestId.utf8ByteSize ≤ 128
  snapshotId : d.served.snapshotId.utf8ByteSize ≤ 128
  nextCursor : d.served.nextCursor.all (fun t => t.utf8ByteSize ≤ maxCursorUtf8Bytes) = true
  cutDigest : canonicalSha256 d.served.cutDigest = true
  created : d.served.snapshotCreatedAtMs ≤ maxJsonInteger
  lease : d.served.snapshotLeaseExpiresAtMs ≤ maxJsonInteger
  absolute : d.served.snapshotAbsoluteExpiresAtMs ≤ maxJsonInteger
  chunkIndex : d.served.chunkIndex ≤ maxJsonInteger
  through : d.served.throughEventSeq ≤ unsignedCounterMax
  revision : d.served.scopesRevision ≤ unsignedCounterMax
  totalRecords : d.served.totalRecords ≤ maxSnapshotRecords
  totalCanonicalBytes : d.served.totalCanonicalBytes ≤ maxSnapshotCanonicalBytes

/-- **A frame is hardly longer than its records.** -/
theorem Short.frame_bytes (h : d.Short) : d.frame.bytes ≤ arrayBytes d.served.records + 16384 := by
  have hrecords : arrayBytes d.served.records = Json.bytesItems (d.served.records.map fun r => (recordJson r).sorted) + 2 := by
    unfold arrayBytes Record.array
    rw [Json.bytes, List.map_congr_left fun r _ => recordJson_sorted r]
  have hwords : ∀ word ∈ ["protocolVersion", "kind", "response", "type", "state.snapshot.chunk", "requestId", "hostId",
      "hostEpoch", "payload", "coverageComplete", "snapshotRequestId", "snapshotId", "snapshotCreatedAtMs",
      "snapshotLeaseExpiresAtMs", "snapshotAbsoluteExpiresAtMs", "chunkIndex", "isLast", "nextCursor", "throughEventSeq",
      "scopesRevision", "totalRecords", "totalCanonicalBytes", "cutDigest", "records"], word.utf8ByteSize ≤ 32 := by
    decide
  simp only [List.forall_mem_cons, List.not_mem_nil, false_implies, implies_true, and_true] at hwords
  have hbool : ∀ p : Prop, [Decidable p] → (if p then 4 else 5) ≤ 5 := by
    intro p _
    split <;> omega
  have hcursor : (Json.opt Json.str d.served.nextCursor).bytes ≤ 6 * maxCursorUtf8Bytes + 2 := by
    have hshort := h.nextCursor
    cases hc : d.served.nextCursor with
    | none =>
      rw [Json.opt, Json.bytes]
      decide
    | some t =>
      rw [hc] at hshort
      have := quoted_bytes (of_decide_eq_true hshort)
      rw [Json.opt, Json.bytes]
      omega
  have hdigest : d.served.cutDigest.utf8ByteSize ≤ 172 := by
    have hlength : d.served.cutDigest.toList.length = 43 := by
      have := h.cutDigest
      simp only [canonicalSha256, Bool.and_eq_true, decide_eq_true_eq] at this
      exact this.1
    have := utf8ByteSize_le d.served.cutDigest
    omega
  have hinteger : ∀ {n : Nat}, n ≤ maxJsonInteger → (toString n).utf8ByteSize ≤ 80 := fun hn =>
    counter_bytes (Nat.le_trans hn (by decide))
  have hversion : (toString 2).utf8ByteSize ≤ 80 := counter_bytes (by decide)
  have h₁ := quoted_bytes h.requestId
  have h₂ := quoted_bytes h.hostId
  have h₃ := quoted_bytes h.hostEpoch
  have h₄ := quoted_bytes h.snapshotRequestId
  have h₅ := quoted_bytes h.snapshotId
  have h₆ := quoted_bytes hdigest
  have h₇ := hinteger h.created
  have h₈ := hinteger h.lease
  have h₉ := hinteger h.absolute
  have h₁₀ := hinteger h.chunkIndex
  have h₁₁ := hinteger (Nat.le_trans h.totalRecords (by decide))
  have h₁₂ := hinteger (Nat.le_trans h.totalCanonicalBytes (by decide))
  have h₁₃ := counter_bytes h.through
  have h₁₄ := counter_bytes h.revision
  have h₁₅ := hbool (d.served.isLast = true)
  have hmax : maxCursorUtf8Bytes = 1024 := rfl
  unfold frame snapshotChunkFrame
  simp only [Json.bytes, Json.bytesFields, if_true]
  omega

end Delivery

/-! ## The parts of a cut -/

theorem bytesOf_append (rs rs' : List Record) : Record.bytesOf (rs ++ rs') = Record.bytesOf rs + Record.bytesOf rs' := by
  unfold Record.bytesOf
  rw [List.map_append, List.sum_append]

theorem arrayBytes_le_append (rs rs' : List Record) : arrayBytes rs ≤ arrayBytes (rs ++ rs') := by
  rw [arrayBytes_eq, arrayBytes_eq, bytesOf_append, List.length_append]
  omega

theorem parts_bytes (parts : List (List Record)) :
    (parts.map arrayBytes).sum ≤ arrayBytes parts.flatten + 2 * parts.length := by
  have hsum : (parts.map arrayBytes).sum ≤ Record.bytesOf parts.flatten + parts.flatten.length + 2 * parts.length := by
    induction parts with
    | nil => simp
    | cons part rest ih =>
      have := arrayBytes_eq part
      rw [List.map_cons, List.sum_cons, List.flatten_cons, bytesOf_append, List.length_append, List.length_cons]
      omega
  rw [arrayBytes_eq]
  omega

/-- **Where a chunk ends, there was a reason**: it has all the records that it may, or the next one would be too much. -/
theorem contents_chain (rs : List Record) : (Packing.pack (fits limits) rs).IsChain fun part next =>
    524288 ≤ 2048 * part.length + arrayBytes part + arrayBytes next := by
  refine (Packing.full (fits limits) rs).imp fun part next hfull => ?_
  obtain ⟨r, hr, hnot⟩ := hfull
  obtain ⟨rest, rfl⟩ : ∃ rest, next = r :: rest := by
    cases next with
    | nil => cases hr
    | cons r' rest => exact ⟨rest, by rw [Option.some.inj hr]⟩
  have happend := arrayBytes_append part r
  have hnext : r.bytes + 2 ≤ arrayBytes (r :: rest) := by
    rw [arrayBytes_eq]
    simp only [Record.bytesOf, List.map_cons, List.sum_cons]
    omega
  have hseparator : (if part.isEmpty then 0 else 1) ≤ 1 := by split <;> omega
  have hlimits : limits.maxChunkRecords = 256 ∧ limits.maxChunkCanonicalBytes = 524288 := ⟨rfl, rfl⟩
  unfold fits at hnot
  rw [hlimits.1, hlimits.2, Bool.and_eq_false_iff, decide_eq_false_iff_not, decide_eq_false_iff_not, List.length_append, List.length_singleton] at hnot
  omega

/-- **All the frames of a cut may be staged.** -/
theorem Published.frames_bytes {C : Core} {now : Nat} {reservation : Reservation} {cut : Cut} {written : ActiveCut}
    (h : Published C limits now reservation cut written) :
    (written.contents.map fun part => arrayBytes part + 16384).sum ≤ maxStagedRawUtf8Bytes := by
  have hsum : (written.contents.map fun part => arrayBytes part + 16384).sum =
      (written.contents.map arrayBytes).sum + 16384 * written.contents.length := by
    induction written.contents with
    | nil => rfl
    | cons part rest ih =>
      simp only [List.map_cons, List.sum_cons, List.length_cons, ih]
      omega
  have hflatten : written.contents.flatten = cut.records := by rw [h.contents, Packing.flatten_pack]
  have hparts := parts_bytes written.contents
  have hchain := Packing.chain_length (h.contents ▸ contents_chain cut.records :
    written.contents.IsChain fun part next => 524288 ≤ 2048 * part.length + arrayBytes part + arrayBytes next)
  have hrecords : (written.contents.map fun part => 2048 * part.length).sum = 2048 * cut.records.length := by
    rw [← hflatten]
    induction written.contents with
    | nil => rfl
    | cons part rest ih =>
      rw [List.map_cons, List.sum_cons, List.flatten_cons, List.length_append, ih]
      omega
  have hwithin : cut.records.length ≤ 100000 ∧ arrayBytes cut.records ≤ 268435456 := by
    by_cases hempty : cut.records = []
    · rw [hempty, arrayBytes_nil]
      decide
    · exact h.within hempty
  have hmax : maxStagedRawUtf8Bytes = 536870912 := rfl
  rw [hflatten] at hparts
  omega

end Spool
end TmuxWorktree

import TmuxWorktree.Spool.Records
import TmuxWorktree.Sync.Sequence
/-!
# Order — a cut that the host lets through is in the app's order

Both sides go through the records with a state of their own; the states agree after every record.
-/
namespace TmuxWorktree
namespace Spool

open Sync (Record SnapshotOrder RecordKind compareUtf8)

theorem compareUtf8_isLE {x y : String} (h : (utf8Compare x y).isGE = false) : (compareUtf8 y x).isLE = false := by
  have hlt : x.toUTF8.data.toList < y.toUTF8.data.toList := by
    unfold utf8Compare compareOfLessAndEq at h
    split at h
    · assumption
    · split at h <;> cases h
  unfold compareUtf8 compareOfLessAndEq
  rw [if_neg (List.lt_asymm hlt), if_neg]
  · rfl
  · intro heq
    rw [heq] at hlt
    exact List.lt_irrefl _ hlt

/-- The two states stand at one record. -/
structure SameOrder (h : RecordOrder) (o : SnapshotOrder) : Prop where
  current : h.currentScope = o.scopeId
  last : h.lastScope = o.scopeId
  opened : o.scopeId.isSome → (h.sawSessionsScope = false ↔ o.recordKind = some .scope)
  listed : h.sawSessionsScope = true → o.recordKind = some .sessionsScope ∨ o.recordKind = some .session
  session : h.lastSession = o.sessionId
  fresh : h.sawSessionsScope = false → h.lastSession = none
  started : o.scopeId = none → h.sawSessionsScope = false ∧ o.recordKind = none

theorem sameOrder_start : SameOrder {} SnapshotOrder.start where
  current := rfl
  last := rfl
  opened := by simp [SnapshotOrder.start]
  listed := by simp
  session := rfl
  fresh := fun _ => rfl
  started := by simp [SnapshotOrder.start]

variable {h h' : RecordOrder} {o : SnapshotOrder} {r : Record}

theorem SameOrder.accept (hs : SameOrder h o) (ha : acceptRecordOrder h r = some h') :
    ∃ o', o.advance r = some o' ∧ SameOrder h' o' := by
  cases r with
  | scope item =>
    simp only [acceptRecordOrder] at ha
    split at ha
    · cases ha
    rename_i hopen
    cases ha
    simp only [Bool.or_eq_true, Bool.and_eq_true, Bool.not_eq_true', not_or, not_and, Bool.not_eq_false, Bool.not_eq_true] at hopen
    refine ⟨⟨some item.scopeId, some .scope, none⟩, ?_, ⟨rfl, rfl, by simp, by simp, rfl, fun _ => rfl, by simp⟩⟩
    rw [SnapshotOrder.advance, if_neg]
    cases hscope : o.scopeId with
    | none => simp
    | some scopeId =>
      have hsaw : h.sawSessionsScope = true := hopen.1 (by rw [hs.current, hscope]; rfl)
      have hkind : o.recordKind ≠ some .scope := fun hk => by
        rw [(hs.opened (by rw [hscope]; rfl)).mpr hk] at hsaw
        cases hsaw
      have hcompare : (utf8Compare scopeId item.scopeId).isGE = false := by
        have hlast := hopen.2
        rw [hs.last, hscope] at hlast
        exact hlast
      simp [hkind, compareUtf8_isLE hcompare]
  | sessionsScope scopeId revision =>
    simp only [acceptRecordOrder] at ha
    split at ha
    · cases ha
    rename_i hopen
    cases ha
    simp only [Bool.or_eq_true, decide_eq_true_eq, not_or, not_not, Bool.not_eq_true, Option.isNone_eq_false_iff] at hopen
    obtain ⟨⟨-, hsaw⟩, hscope⟩ := hopen
    rw [hs.current] at hscope
    have hkind : o.recordKind = some .scope := (hs.opened (by rw [hscope]; rfl)).mp hsaw
    refine ⟨⟨o.scopeId, some .sessionsScope, none⟩, ?_,
      ⟨hs.current, hs.last, by simp, by simp, hs.fresh hsaw, by simp, by simp [hscope]⟩⟩
    simp [SnapshotOrder.advance, hscope, hkind]
  | session item =>
    simp only [acceptRecordOrder] at ha
    split at ha
    · cases ha
    rename_i hopen
    cases ha
    simp only [Bool.or_eq_true, decide_eq_true_eq, not_or, not_not, Bool.not_eq_true, Bool.not_eq_true', Bool.not_eq_false,
      Option.isNone_eq_false_iff] at hopen
    obtain ⟨⟨⟨-, hsaw⟩, hscope⟩, hlast⟩ := hopen
    rw [hs.current] at hscope
    have hkind := hs.listed hsaw
    refine ⟨⟨o.scopeId, some .session, some item.sessionId⟩, ?_,
      ⟨hs.current, hs.last, by simp [hsaw], by simp, rfl, by simp [hsaw], by simp [hscope]⟩⟩
    rw [SnapshotOrder.advance, if_neg]
    rw [hs.session] at hlast
    cases hsession : o.sessionId with
    | none => rcases hkind with hkind | hkind <;> simp [hscope, hkind]
    | some sessionId =>
      rw [hsession] at hlast
      rcases hkind with hkind | hkind <;> simp [hscope, hkind, compareUtf8_isLE hlast]

theorem SameOrder.all {rs : List Record} (hs : SameOrder h o) (ha : rs.foldlM acceptRecordOrder h = some h') :
    ∃ o', o.through rs = some o' ∧ SameOrder h' o' := by
  induction rs generalizing h o with
  | nil =>
    obtain rfl := Option.some.inj ha
    exact ⟨o, rfl, hs⟩
  | cons r rest ih =>
    rw [List.foldlM_cons] at ha
    obtain ⟨h₁, hr, hrest⟩ := Option.bind_eq_some_iff.mp ha
    obtain ⟨o₁, ho₁, hs₁⟩ := hs.accept hr
    obtain ⟨o', ho', hs'⟩ := ih hs₁ hrest
    exact ⟨o', Option.bind_eq_some_iff.mpr ⟨o₁, ho₁, ho'⟩, hs'⟩

/-- **What the host lets through, the app's order goes through**, and it does not end with a scope. -/
theorem validateRecordStream_through {rs : List Record} (hv : validateRecordStream rs = true) :
    ∃ o, SnapshotOrder.start.through rs = some o ∧ o.recordKind ≠ some .scope := by
  unfold validateRecordStream at hv
  obtain ⟨h', ha, hfinish⟩ := (Option.any_eq_true _ _).mp hv
  obtain ⟨o, ho, hs⟩ := sameOrder_start.all ha
  refine ⟨o, ho, fun hkind => ?_⟩
  have hscope : o.scopeId.isSome := by
    by_contra hnone
    have := (hs.started (Option.not_isSome_iff_eq_none.mp hnone)).2
    rw [this] at hkind
    cases hkind
  have hsaw := (hs.opened hscope).mpr hkind
  unfold finishRecordOrder at hfinish
  rw [hs.current, hsaw, Bool.or_false] at hfinish
  rw [Option.isNone_iff_eq_none.mp hfinish] at hscope
  cases hscope

end Spool
end TmuxWorktree

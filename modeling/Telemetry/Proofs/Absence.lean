/-
# Recorded numbers and absent ones

The queue time, the status and the sub-status of a request may be absent.  Each
of them is held in a cell of fixed width (`Metadata.Cells`), in which one number
stands for an absent one.  A queue time is written clear of that number
(`Cells.ofSpan_ne_absent`); a status is written as it is.

What is read from the cells is what the metadata holds, call by call
(`Cells.calls_scalars`).  So a recorded number is there until the next call that
writes it (`Metadata.recalls`), with one exception: the least status of 32 bits
is the number for an absent one, and recording it is recording none.
-/

import Telemetry.Proofs.Snapshots

namespace Telemetry

open Numeric

namespace Metadata

/-- The numbers of a request that may be absent. -/
structure Scalars where
  queueTime : Option Duration
  status : Option Int
  subStatus : Option Int

/-- The numbers that the metadata holds. -/
def scalars (m : Metadata) : Scalars := ⟨m.queueTime, m.status, m.subStatus⟩

end Metadata

/-- The numbers that a snapshot shows. -/
def Snapshot.scalars (s : Snapshot) : Metadata.Scalars := ⟨s.queueTime, s.status, s.subStatus⟩

namespace Metadata

/-- The statuses of a call are numbers of 32 bits. -/
def Call.Fits (c : Call) : Prop :=
  ∀ w ∈ c.status?, ∀ n ∈ w.1 :: w.2.toList, -2 ^ 31 ≤ n ∧ n < 2 ^ 31

/-! ### Cells -/

/-- The cells of the numbers that may be absent. -/
structure Cells where
  queueTime : UInt64
  status : Int32
  subStatus : Int32

namespace Cells

/-- The number that stands for an absent span. -/
def absentSpan : UInt64 := 18446744073709551615

/-- The number that is written for a span. -/
def ofSpan (d : Duration) : UInt64 :=
  if d.nanoseconds < UInt64.size then min (.ofNat d.nanoseconds) (absentSpan - 1)
  else absentSpan - 1

/-- The span that is read from a cell. -/
def readSpan (raw : UInt64) : Option Duration :=
  if raw = absentSpan then none else some ⟨raw.toNat⟩

/-- The number that is written for a sub-status; the least one stands for an
absent one. -/
def ofSubStatus (sub : Option Int) : Int32 := (sub.map Int32.ofInt).getD Int32.minValue

/-- The status or sub-status that is read from a cell. -/
def readStatus (raw : Int32) : Option Int :=
  if raw = Int32.minValue then none else some raw.toInt

/-- The cells of a request of which nothing is recorded. -/
def empty : Cells := ⟨absentSpan, Int32.minValue, Int32.minValue⟩

/-- The cells after a call. -/
def call (w : Cells) (c : Call) : Cells where
  queueTime := c.queueTime?.elim w.queueTime ofSpan
  status := c.status?.elim w.status fun s => .ofInt s.1
  subStatus := c.status?.elim w.subStatus fun s => ofSubStatus s.2

/-- The cells after calls, one after the other. -/
def calls (w : Cells) (cs : List Call) : Cells := cs.foldl call w

/-- What is read from the cells. -/
def scalars (w : Cells) : Scalars :=
  ⟨readSpan w.queueTime, readStatus w.status, readStatus w.subStatus⟩

/-! ### Writing and reading a cell -/

/-- The cell of a span holds its nanoseconds, which fit into it. -/
theorem ofSpan_toNat (d : Duration) : (ofSpan d).toNat = (recordedSpan d).nanoseconds := by
  have hmax : (absentSpan - 1).toNat = longestSpan := rfl
  unfold ofSpan
  split_ifs with hfits
  · rw [UInt64.toNat_min, hmax, UInt64.toNat_ofNat_of_lt' hfits]
    rfl
  · have hle : longestSpan ≤ d.nanoseconds := by
      simp only [UInt64.size] at hfits
      simp only [longestSpan]
      omega
    exact hmax.trans (Nat.min_eq_right hle).symm

/-- **A span is written clear of the number for an absent one.** -/
theorem ofSpan_ne_absent (d : Duration) : ofSpan d ≠ absentSpan := by
  intro h
  have hle : (recordedSpan d).nanoseconds ≤ longestSpan := Nat.min_le_right _ _
  rw [← ofSpan_toNat, h] at hle
  exact absurd hle (by decide)

/-- A span is read back as it was recorded: to the nanosecond and never as an absent one. -/
theorem readSpan_ofSpan (d : Duration) : readSpan (ofSpan d) = some (recordedSpan d) := by
  rw [readSpan, if_neg (ofSpan_ne_absent d), ofSpan_toNat]

/-- A status is read back unless it is the least number, which stands for an absent one. -/
theorem readStatus_ofInt {n : Int} (h : -2 ^ 31 ≤ n ∧ n < 2 ^ 31) :
    readStatus (.ofInt n) = presentStatus n := by
  have hn : (Int32.ofInt n).toInt = n := Int32.toInt_ofInt_of_le h.1 h.2
  have habsent : Int32.ofInt n = Int32.minValue ↔ n = absentStatus := by
    rw [← Int32.toInt_inj, hn]
    rfl
  simp only [readStatus, presentStatus, habsent, hn]

/-- A sub-status is read back unless it is the least number, and an absent one stays absent. -/
theorem readStatus_ofSubStatus {sub : Option Int} (h : ∀ n ∈ sub, -2 ^ 31 ≤ n ∧ n < 2 ^ 31) :
    readStatus (ofSubStatus sub) = sub.bind presentStatus := by
  cases sub with
  | none => rfl
  | some n => exact readStatus_ofInt (h n rfl)

/-! ### The cells hold what the metadata holds -/

variable {w : Cells} {m : Metadata} {c : Call} {cs : List Call}

/-- A call keeps cells and metadata in agreement. -/
theorem call_scalars (h : w.scalars = m.scalars) (hc : c.Fits) :
    (w.call c).scalars = (m.call c).scalars := by
  rw [scalars, Metadata.scalars, Scalars.mk.injEq] at h
  rw [call_eq, scalars, Metadata.scalars, Scalars.mk.injEq]
  obtain ⟨hqueue, hstatus, hsub⟩ := h
  refine ⟨?_, ?_, ?_⟩
  · cases hd : c.queueTime? with
    | none => simpa [call, hd] using hqueue
    | some d => simpa [call, hd] using readSpan_ofSpan d
  · cases hs : c.status? with
    | none => simpa [call, hs] using hstatus
    | some s => simpa [call, hs] using readStatus_ofInt (hc s hs s.1 (.head _))
  · cases hs : c.status? with
    | none => simpa [call, hs] using hsub
    | some s =>
      have hfits := fun n hn => hc s hs n (.tail _ (Option.mem_toList.2 hn))
      simpa [call, hs] using readStatus_ofSubStatus hfits

/-- **The cells hold what the metadata holds**, after any calls. -/
theorem calls_scalars (h : w.scalars = m.scalars) (hcs : ∀ c ∈ cs, c.Fits) :
    (w.calls cs).scalars = (m.calls cs).scalars := by
  induction cs generalizing w m with
  | nil => exact h
  | cons c cs ih =>
    rw [List.forall_mem_cons] at hcs
    exact ih (call_scalars h hcs.1) hcs.2

end Cells

/-! ### What stays of a call -/

/-- What is written last stays the last write while other calls follow. -/
theorem Call.last_append {β : Type} {write : Call → Option β} {c : Call} {x : β}
    (before : List Call) {after : List Call} (hc : write c = some x)
    (hafter : ∀ c ∈ after, write c = none) : last write (before ++ c :: after) = some x := by
  rw [last, List.filterMap_append, List.filterMap_cons_some hc,
    List.filterMap_eq_nil_iff.2 hafter, List.getLast?_concat]

/-- What is told of the numbers that the calls on a request recorded. -/
structure Recalls (limits : Limits) (cs : List Call) : Prop where
  cells : (Cells.empty.calls cs).scalars = ((ofLimits limits).calls cs).scalars
  snapshot : ((ofLimits limits).calls cs).freeze.scalars = ((ofLimits limits).calls cs).scalars
  /-- A queue time is there until the next one is recorded. -/
  queueTime : ∀ before d after, cs = before ++ .queueTime d :: after →
    (∀ c ∈ after, c.queueTime? = none) →
    ((ofLimits limits).calls cs).queueTime = some ⟨min d.nanoseconds (2 ^ 64 - 2)⟩
  /-- A status is there until the next one is recorded, and so is a sub-status or
  that there is none, but the least number is taken for an absent one. -/
  status : ∀ before code sub after, cs = before ++ .status code sub :: after →
    (∀ c ∈ after, c.status? = none) →
    ((ofLimits limits).calls cs).status = (if code = -2 ^ 31 then none else some code) ∧
      ((ofLimits limits).calls cs).subStatus =
        sub.bind fun n => if n = -2 ^ 31 then none else some n

/-- **A recorded number is there until the next call that writes it**, the least
status apart. -/
theorem recalls (limits : Limits) {cs : List Call} (h : ∀ c ∈ cs, c.Fits) :
    Recalls limits cs where
  cells := Cells.calls_scalars rfl h
  snapshot := rfl
  queueTime := by
    rintro before d after rfl hafter
    have hfield := calls_map Metadata.queueTime Call.queueTime? recordedSpan
      (fun m c => congrArg Metadata.queueTime (call_eq m c)) (m := ofLimits limits) rfl
      (before ++ .queueTime d :: after)
    rw [hfield, Call.last_append before (x := d) rfl hafter]
    rfl
  status := by
    rintro before code sub after rfl hafter
    have hfields := calls_statuses limits (before ++ .status code sub :: after)
    rw [Call.last_append before (x := (code, sub)) rfl hafter] at hfields
    exact hfields

/-- Calls of which the first waits longer than a cell can tell, and the last takes
the sub-status back. -/
def longQueue : List Call :=
  [.queueTime ⟨2 ^ 64⟩, .status 503 (some 2), .flag true, .status 200 none]

/-- A wait beyond the cell is cut short, and a sub-status that is missing the second time is
absent again. -/
theorem recalls_longQueue : Recalls .standard longQueue ∧
    (Cells.empty.calls longQueue).scalars = ⟨some ⟨2 ^ 64 - 2⟩, some 200, none⟩ := by
  have hfits : ∀ c ∈ longQueue, c.Fits := by
    simp [longQueue, Call.Fits, Call.status?]
  have h := recalls .standard hfits
  have hqueue := h.queueTime [] ⟨2 ^ 64⟩ _ rfl (by simp [Call.queueTime?])
  have hstatus := h.status (longQueue.take 3) 200 none [] rfl (by simp)
  refine ⟨h, h.cells.trans ?_⟩
  rw [scalars, hqueue, hstatus.1, hstatus.2]
  rfl

/-- The least number is lost, as a status and as a sub-status. -/
theorem leastStatus_lost :
    ((ofLimits .standard).calls [.status (-2 ^ 31) (some 1)]).freeze.scalars =
        ⟨none, none, some 1⟩ ∧
      ((ofLimits .standard).calls [.status 500 (some (-2 ^ 31))]).freeze.scalars =
        ⟨none, some 500, none⟩ :=
  ⟨rfl, rfl⟩

end Metadata
end Telemetry

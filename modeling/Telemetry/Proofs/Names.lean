/-
# Which names a command gives anew

Only the commands that open or close a collection change what its name stands
for, and only those that work on a batcher change the batcher.
-/

import Telemetry.Tracer.Command
import Telemetry.Proofs.Custody

namespace Telemetry

open Trace

namespace Tracer

/-- The commands that open or close a collection. -/
def Command.Opens (cn : String) : Command → Prop
  | .openCollection _ n | .dropCollection n | .intoRecord n _ => n = cn
  | _ => False

/-- The commands that work on a batcher. -/
def Command.Serves (q : String) : Command → Prop
  | .batcher n _ | .enqueue n _ | .enqueueNumbered n _ _ _ | .flush n _ | .takeBatch n _
  | .count n _ _ _ => n = q
  | _ => False

/-- The names of collections and batchers that a command leaves alone. -/
structure Retains (c : Command) (t t' : Tracer) : Prop where
  collections : ∀ cn, ¬ c.Opens cn → t'.collections.get? cn = t.collections.get? cn
  batchers : ∀ q, ¬ c.Serves q → t'.batchers.get? q = t.batchers.get? q

variable {t t' : Tracer} {c : Command} {α : Type}

namespace Retains

/-- Where the collections and batchers are the same, every name is retained. -/
theorem of_eq (hc : t'.collections = t.collections) (hb : t'.batchers = t.batchers) :
    Retains c t t' :=
  ⟨fun _ _ => by rw [hc], fun _ _ => by rw [hb]⟩

/-- A name is given to something else, or taken away. -/
theorem of_collections (hc : ∀ cn, ¬ c.Opens cn →
    t'.collections.get? cn = t.collections.get? cn) (hb : t'.batchers = t.batchers) :
    Retains c t t' :=
  ⟨hc, fun _ _ => by rw [hb]⟩

/-- A command may write the batcher that it serves. -/
theorem of_insertBatcher {q : String} {b : Batcher} (hc : t'.collections = t.collections)
    (hb : t'.batchers = t.batchers.insert q b) (hq : c.Serves q) : Retains c t t' := by
  refine ⟨fun _ _ => by rw [hc], fun q' hq' => ?_⟩
  rw [hb, Keyed.get?_insert, if_neg]
  rintro rfl
  exact hq' hq

end Retains

/-- What a command answers if it is carried out at all. -/
def Answers (c : Command) (t : Tracer) (x : Option (Reply × Tracer)) : Prop :=
  ∀ out, x = some out → Retains c t out.2

/-- A command that is not carried out answers for nothing. -/
theorem answers_none : Answers c t none := fun _ h => absurd h.symm (Option.some_ne_none _)

/-- A command that is carried out answers for the names it leaves. -/
theorem answers_some {out : Reply × Tracer} (h : Retains c t out.2) : Answers c t (some out) := by
  intro _ hout
  rw [← Option.some.inj hout]
  exact h

/-- A command that looks a name up first answers for what it does with what it finds. -/
theorem answers_bind {x : Option α} {f : α → Option (Reply × Tracer)}
    (h : ∀ a, x = some a → Answers c t (f a)) : Answers c t (x >>= f) := by
  cases hx : x with
  | none => exact answers_none
  | some a => exact h a hx

/-- An operation on the store does not see the names. -/
theorem retains_after {a : Action α} {k : α → Tracer → Reply × Tracer}
    (h : ∀ x s, Retains c t (k x { t' with store := s }).2)
    (he : Retains c t t') : Retains c t (t'.after a k).2 := by
  cases ha : a t'.store with
  | ok x s =>
    rw [after_ok ha]
    exact h x s
  | error e s =>
    rw [after_error ha]
    exact ⟨he.collections, he.batchers⟩

/-- An action works on the store, so only what comes after it can change names. -/
theorem answers_after {a : Action α} {k : α → Tracer → Reply × Tracer}
    (h : ∀ x s, Retains c t (k x { t with store := s }).2) : Answers c t (some (t.after a k)) :=
  answers_some (retains_after h (.of_eq rfl rfl))

/-- Commands on attributes retain all names of collections and batchers. -/
theorem performAttribute_answers (t : Tracer) (c : Command) :
    Answers c t (t.performAttribute? c) := by
  cases c
  case setUp | forget => exact answers_some (.of_eq rfl rfl)
  case defer => exact answers_after fun _ _ => .of_eq rfl rfl
  case dropSet | lookCell | look | inspect =>
    exact answers_bind fun _ _ => answers_some (.of_eq rfl rfl)
  case tick | force | create | setValue | freezeAttribute | addReference | removeReference =>
    exact answers_bind fun _ _ => answers_after fun _ _ => .of_eq rfl rfl
  case setDeferred =>
    exact answers_bind fun _ _ => answers_bind fun _ _ => answers_after fun _ _ => .of_eq rfl rfl
  case same =>
    exact answers_bind fun _ _ => answers_bind fun _ _ => answers_some (.of_eq rfl rfl)
  case copy =>
    refine answers_bind fun _ _ => answers_bind fun _ _ => answers_after fun j _ => ?_
    cases j <;> exact .of_eq rfl rfl
  all_goals exact answers_none

/-- Commands on records write the collection that they open or end, and no other one. -/
theorem performRecord_answers (t : Tracer) (c : Command) : Answers c t (t.performRecord? c) := by
  cases c
  -- most commands on records write the store only
  case put | freeze | lease => exact answers_bind fun _ _ => answers_after fun _ _ => .of_eq rfl rfl
  case putDeferred | putAttribute | removeMany | insert =>
    exact answers_bind fun _ _ => answers_bind fun _ _ => answers_after fun _ _ => .of_eq rfl rfl
  case prioritize | lookCollection | inspectCollection | lookRecord | inspectRecord
      | prioritizeRecord | dropRecord =>
    exact answers_bind fun _ _ => answers_some (.of_eq rfl rfl)
  case release =>
    exact answers_bind fun _ _ =>
      answers_some (retains_after (fun _ _ => .of_eq rfl rfl) (.of_eq rfl rfl))
  case get cn k name h =>
    refine answers_bind fun c _ => ?_
    cases ((t.store.record c.record).attributes k).get? name with
    | none => exact answers_some (.of_eq rfl rfl)
    | some i => cases h <;> exact answers_some (.of_eq rfl rfl)
  -- these three write the names of collections
  case openCollection n cn =>
    refine answers_bind fun p _ => answers_some (retains_after (fun co s => ?_) (.of_eq rfl rfl))
    have hnamed : ∀ s', Retains (.openCollection n cn) t
        { t with store := s', collections := t.collections.insert cn co } := fun s' =>
      .of_collections (fun m hm => (Keyed.get?_insert ..).trans (if_neg hm)) rfl
    exact retains_after (fun _ s' => hnamed s') (hnamed s)
  case dropCollection cn =>
    refine answers_bind fun p _ => answers_some ?_
    have hnamed : ∀ s, Retains (.dropCollection cn) t
        { t with store := s, collections := t.collections.erase cn } := fun s =>
      .of_collections (fun m hm => (Keyed.get?_erase ..).trans (if_neg hm)) rfl
    exact retains_after (fun _ s => hnamed s) (hnamed t.store)
  case intoRecord cn n =>
    refine answers_bind fun p _ => answers_some ?_
    have hnamed : ∀ s m, Retains (.intoRecord cn n) t
        { t with store := s, collections := t.collections.erase cn, records := m } := fun s m =>
      .of_collections (fun m hm => (Keyed.get?_erase ..).trans (if_neg hm)) rfl
    exact retains_after (fun _ s => hnamed s _) (hnamed t.store t.records)
  all_goals exact answers_none

/-- Commands on exporters and batchers write the batcher that they serve, and no other one. -/
theorem performDelivery_answers (t : Tracer) (c : Command) :
    Answers c t (t.performDelivery? c) := by
  cases c
  case exporter | advance => exact answers_some (.of_eq rfl rfl)
  case batch n names =>
    refine answers_bind fun out h => answers_some ?_
    obtain ⟨-, -, hc, hb, -⟩ := takeRecords_spec names t out.1 out.2 h
    exact .of_eq hc hb
  case batchAdd n name =>
    refine answers_bind fun rs _ => answers_bind fun out h => answers_some ?_
    obtain ⟨-, -, hc, hb, -⟩ := takeRecords_spec [name] t out.1 out.2 h
    exact .of_eq hc hb
  case lookBatch | lookExporter | lookBatcher =>
    exact answers_bind fun _ _ => answers_some (.of_eq rfl rfl)
  case sent | discard =>
    exact answers_bind fun _ _ =>
      answers_some (retains_after (fun _ _ => .of_eq rfl rfl) (.of_eq rfl rfl))
  -- sending writes the batch and the exporter, whatever came of it
  case send en n =>
    refine answers_bind fun e _ => answers_bind fun rs _ => ?_
    rcases e.send rs t.store with ⟨_ | _ | _, e', s'⟩ <;> exact answers_some (.of_eq rfl rfl)
  -- these write the batcher that they serve
  case batcher => exact answers_some (.of_insertBatcher rfl rfl rfl)
  case enqueue =>
    exact answers_bind fun _ _ => answers_bind fun _ _ =>
      answers_some (.of_insertBatcher rfl rfl rfl)
  case enqueueNumbered =>
    exact answers_bind fun _ _ => answers_bind fun _ _ =>
      answers_after fun _ _ => .of_insertBatcher rfl rfl rfl
  case flush q en =>
    refine answers_bind fun b _ => answers_bind fun e _ => ?_
    rcases b.flush e t.store with ⟨_ | _ | _, b', e', s'⟩ <;>
      exact answers_some (.of_insertBatcher rfl rfl rfl)
  case takeBatch q n =>
    refine answers_bind fun b _ => ?_
    rcases b.takeBatch t.store.now with ⟨_ | rs, b'⟩ <;>
      exact answers_some (.of_insertBatcher rfl rfl rfl)
  case count => exact answers_bind fun _ _ => answers_some (.of_insertBatcher rfl rfl rfl)
  all_goals exact answers_none

/-- **A command leaves the names of collections and batchers alone** that it
does not open, close or work on. -/
theorem retains_step (t : Tracer) (c : Command) : Retains c t (t.step c).2 := by
  have hanswer : Retains c t.cleared (t.cleared.answer c).2 := by
    unfold answer
    cases ha : t.cleared.performAttribute? c with
    | some out => exact performAttribute_answers _ c out ha
    | none =>
      cases hr : t.cleared.performRecord? c with
      | some out => exact performRecord_answers _ c out hr
      | none =>
        cases hd : t.cleared.performDelivery? c with
        | some out => exact performDelivery_answers _ c out hd
        | none => exact .of_eq rfl rfl
  exact ⟨hanswer.collections, hanswer.batchers⟩

end Tracer
end Telemetry

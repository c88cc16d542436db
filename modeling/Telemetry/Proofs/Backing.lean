/-
# The deferred values that attributes carry

A deferred value that an attribute carries is there, and if the attribute is frozen
and has no value, the deferred value was computed and came to nothing
(`Store.Backed`).  Only two incidents could break this: a freeze, and the writing of
a deferred value.  A freeze asks for what the attribute carries, and a computation
leaves an attribute what it carries or empties its slot (`freezeWith_backed`); a
command writes no deferred values but such as its names stand for
(`Tracer.Backed.step`).
-/

import Telemetry.Proofs.Once

namespace Telemetry

open Trace

namespace Trace

/-- What an attribute carries is there, and nothing is left to be asked for once the
attribute is frozen. -/
def Slot.Backed (s : Store) (a : Slot) : Prop :=
  ∀ c, a.deferred = some c → c < s.cells.size ∧
    (a.immutable = true → a.value = none → (s.cell c).progress = .finished none)

namespace Slot.Backed

variable {s s' : Store} {a : Slot}

/-- An attribute without deferred value has nothing that could be missing. -/
theorem of_deferred (h : a.deferred = none) : a.Backed s := fun c hc => by
  rw [h] at hc
  cases hc

/-- Deferred values may get on and come new. -/
theorem mono (h : a.Backed s) (hsize : s.cells.size ≤ s'.cells.size)
    (hfinished : ∀ x, (s.cell x).isFinished = true → s'.cell x = s.cell x) : a.Backed s' := by
  intro c hc
  obtain ⟨hlt, hspent⟩ := h c hc
  refine ⟨hlt.trans_le hsize, fun him hv => ?_⟩
  have hp := hspent him hv
  rw [hfinished c (by rw [Cell.isFinished, hp]), hp]

end Slot.Backed
end Trace

namespace Store

open Telemetry.Action

/-- What the attributes carry is there. -/
structure Backed (s : Store) : Prop extends Tidy s where
  backed : ∀ i, (s.slot i).Backed s

variable {A : Incident → Prop} {s s' : Store} {e : Incident} {i : SlotId} {c : CellId}

/-- No incident takes a cell away. -/
theorem Occurs.size_le (ho : s.Occurs e s') : s.cells.size ≤ s'.cells.size := by
  by_cases he : e.Still
  · rw [ho.cells_of_still he]
  · cases ho with
    | deferred => simp
    | begun | finished | abandoned => rw [size_modifyCell]
    | made | valued | promised | frozen | referred | unreferred | emptied | aside =>
      exact absurd trivial he

/-- A run of incidents takes no cell away. -/
theorem Follows.size_le (h : Follows A s s') : s.cells.size ≤ s'.cells.size :=
  Follows.keeps (Q := fun m => s.cells.size ≤ m.cells.size) (fun _ ho hm => hm.trans ho.size_le) h
    le_rfl

/-! ### Incidents -/

/-- The incidents that freeze nothing and write no deferred values. -/
def Incident.Mild : Incident → Prop
  | .frozen .. | .promised .. => False
  | _ => True

/-- Incidents that freeze nothing and write no deferred value may come about in any work on
records. -/
theorem working_mild : Working Incident.Mild :=
  ⟨⟨fun _ _ => trivial, fun _ => trivial, fun _ => trivial, fun _ => trivial⟩, trivial⟩

/-- A slot may be written if what it carries afterwards is there. -/
theorem Backed.modifySlot (h : Backed s) {f : Slot → Slot} (hf : ∀ a : Slot, a.Alike (f a))
    (hi : (f (s.slot i)).Backed s) : Backed (s.modifySlot i f) := by
  refine ⟨h.toTidy.modifySlot_alike hf, fun j => ?_⟩
  rw [slot_modifySlot]
  split_ifs with hj
  · rw [← hj.1]
    exact hi
  · exact h.backed j

/-- What attributes carry stays there in every incident but a freeze, provided that what is
written was there. -/
theorem Occurs.backed (ho : s.Occurs e s') (h : Backed s) (he : ∀ j x, e ≠ .frozen j x)
    (hp : ∀ j x, e = .promised j x → x < s.cells.size) : Backed s' := by
  have hmono : ∀ {a : Slot}, a.Backed s → a.Backed s' := fun ha =>
    Slot.Backed.mono ha ho.size_le fun _ hx => ho.finished_stays hx
  -- pools stay in order in every incident, so only what attributes carry is left to see
  have ht : Tidy s' := tidy_upheld.occurs (fun _ _ _ => trivial) ho h.toTidy
  cases ho with
  | made p d =>
    obtain ⟨j, s₁, hrun, -, -, hself, -, hothers⟩ := createAttribute_tidy h.toTidy p d
    rw [leaves_ok hrun] at ht hmono ⊢
    refine ⟨ht, fun k => ?_⟩
    -- the new attribute carries nothing, and the others what they carried
    by_cases hk : k = j
    · rw [hk]
      exact Slot.Backed.of_deferred (by rw [hself])
    · rw [hothers k hk]
      exact hmono (h.backed k)
  | valued j v =>
    refine h.modifySlot (fun a => (Slot.setValue_writes v a).alike) fun x hx => ?_
    obtain ⟨hlt, hspent⟩ := h.backed j x (Slot.deferred_setValue v _ ▸ hx)
    -- writing a value leaves the deferred one; one that was not needed is needed no more
    refine ⟨hlt, fun him hv => ?_⟩
    unfold Slot.setValue at him hv
    split_ifs at him hv
    exact hspent him hv
  | promised j x =>
    refine h.modifySlot (fun a => (Slot.setDeferred_writes x a).alike) ?_
    unfold Slot.setDeferred
    split_ifs with hj
    · -- only an attribute that can be written takes the deferred value over, and it is not
      -- frozen
      exact h.backed j
    · intro y hy
      cases hy
      exact ⟨hp j x rfl, fun him => absurd him hj⟩
  | frozen => exact absurd rfl (he _ _)
  | referred j => exact h.modifySlot (fun _ => ⟨rfl, rfl, rfl⟩) (h.backed j)
  | unreferred => exact h.modifySlot (fun _ => ⟨rfl, rfl, rfl⟩) (h.backed _)
  | @emptied j hj =>
    have hempties := empties_of_expiring h.toTidy hj
    refine ⟨ht, fun k => ?_⟩
    by_cases hk : k = j
    · rw [hk]
      exact Slot.Backed.of_deferred (Slot.deferred_of_bare (b := {}) hempties.blank)
    · rw [hempties.others k hk]
      exact hmono (h.backed k)
  | deferred | begun | finished | abandoned => exact ⟨ht, fun k => hmono (h.backed k)⟩
  | aside ha =>
    refine ⟨ht, fun k => ?_⟩
    rw [slot, ha.slots]
    exact hmono (h.backed k)

/-- The mild incidents never lose what an attribute carries. -/
theorem Occurs.backed_of_mild (ho : s.Occurs e s') (he : e.Mild) (h : Backed s) : Backed s' := by
  refine ho.backed h (fun j x hfrozen => ?_) fun j x hpromised => ?_
  · subst hfrozen
    exact he
  · subst hpromised
    exact he.elim

/-- Mild incidents in turn never lose what an attribute carries. -/
theorem Follows.backed (h : Follows Incident.Mild s s') (hs : Backed s) : Backed s' :=
  Follows.keeps (fun he ho hm => ho.backed_of_mild he hm) h hs

/-- An operation that comes about by mild incidents keeps what attributes carry. -/
theorem keeps_of_mild {α : Type} {a : Action α} (h : ∀ s, a.Leads Incident.Mild s) :
    Keeps Backed a := fun s hs => (h s).backed hs

/-! ### Freezing -/

/-- **A computation gives no attribute anything to carry.** -/
theorem Follows.deferred (h : Follows Incident.Computes s s') (ht : Tidy s) (i : SlotId) :
    (s'.slot i).deferred = none ∨ (s'.slot i).deferred = (s.slot i).deferred := by
  -- the invariant carried along the run says that pools are in order, too, which the
  -- emptying of a slot needs
  have hkept : Tidy s' ∧
      ((s'.slot i).deferred = none ∨ (s'.slot i).deferred = (s.slot i).deferred) := by
    refine Follows.keeps (Q := fun m => Tidy m ∧
      ((m.slot i).deferred = none ∨ (m.slot i).deferred = (s.slot i).deferred))
      (fun {m m' e} he ho hm => ⟨tidy_upheld.occurs (fun _ _ _ => trivial) ho hm.1, ?_⟩) h
      ⟨ht, Or.inr rfl⟩
    have hsame : (m'.slot i).deferred = (m.slot i).deferred →
        (m'.slot i).deferred = none ∨ (m'.slot i).deferred = (s.slot i).deferred := fun h => by
      rw [h]
      exact hm.2
    -- a write that does not mean the deferred value leaves it, in whichever slot it is made
    have hwrite : ∀ (j : SlotId) {f : Slot → Slot}, (∀ a : Slot, (f a).deferred = a.deferred) →
        ((m.modifySlot j f).slot i).deferred = (m.slot i).deferred := by
      intro j f hf
      rw [slot_modifySlot]
      split_ifs
      · exact hf _
      · rfl
    cases ho with
    | valued j v => exact hsame (hwrite j (Slot.deferred_setValue v))
    | frozen => exact hsame (hwrite _ (Slot.deferred_freeze _))
    | referred j => exact hsame (hwrite j fun _ => rfl)
    | unreferred => exact hsame (hwrite _ fun _ => rfl)
    | @emptied j hj =>
      have hempties := empties_of_expiring hm.1 hj
      by_cases hij : i = j
      · rw [hij]
        exact Or.inl (Slot.deferred_of_bare (b := {}) hempties.blank)
      · exact hsame (congrArg Slot.deferred (hempties.others i hij))
    | begun | finished | abandoned => exact hsame rfl
    | made | promised | deferred | aside => exact he.elim
  exact hkept.2

/-- Freezing a slot after what it carries was asked for. -/
theorem Backed.frozen (h : Backed s) {v : Option Value}
    (hv : ∀ x, (s.slot i).deferred = some x → v = none → (s.slot i).value = none →
      (s.cell x).progress = .finished none) : Backed (s.modifySlot i (Slot.freeze v)) := by
  refine h.modifySlot (fun a => (Slot.freeze_writes v a).alike) fun x hx => ?_
  rw [Slot.deferred_freeze] at hx
  obtain ⟨hlt, hspent⟩ := h.backed i x hx
  refine ⟨hlt, fun him hnone => ?_⟩
  unfold Slot.freeze at him hnone
  split_ifs at him hnone with hi
  · exact hspent hi hnone
  · obtain ⟨hvalue, rfl⟩ := Option.or_eq_none_iff.1 hnone
    exact hv x hx rfl hvalue

section Computing

variable {force : CellId → Action (Option Value)} (hforce : ∀ c, Keeps Backed (force c))
  (hleads : ∀ c s, (force c).Leads Incident.Computes s)
  (hresult : ∀ c s v s', force c s = .ok v s' →
    v = (s'.cell c).result? ∧ (c < s'.cells.size → (s'.cell c).isFinished = true))
include hforce hleads hresult

/-- A freeze keeps it, too: the cell is computed before the attribute is frozen. -/
theorem freezeWith_backed (i : SlotId) : Keeps Backed (freezeWith force i) := by
  intro s h
  rcases frozen_plain_or_pending s i with him | ⟨him, hv | ⟨hv, c, hd⟩⟩
  · rwa [leaves_ok (freezeWith_frozen him)]
  · rw [leaves_ok (freezeWith_plain him hv)]
    refine h.frozen fun x hx _ hnone => ?_
    rcases hv with hv | hv
    · exact absurd hnone hv
    · rw [hv] at hx
      cases hx
  · have hrun : freezeWith force i s = _ := freezeWith_pending him hv hd
    cases hr : force c s with
    | error e s' =>
      rw [hr] at hrun
      rw [leaves_error hrun]
      exact (hforce c).of_error h hr
    | ok v s' =>
      rw [hr] at hrun
      rw [leaves_ok hrun]
      have hs' : Backed s' := (hforce c).of_ok h hr
      obtain ⟨rfl, hfinished⟩ := hresult c s v s' hr
      refine hs'.frozen fun x hx hnone _ => ?_
      -- it carries what was computed for it, or nothing any more
      have hxc : x = c := by
        rcases ((hleads c s).of_ok hr).deferred h.toTidy i with hi | hi
        · rw [hi] at hx
          cases hx
        · rw [hi, hd] at hx
          exact (Option.some.inj hx).symm
      subst hxc
      have hend := hfinished (hs'.backed i x hx).1
      unfold Cell.isFinished at hend
      unfold Cell.result? at hnone
      cases hp : (s'.cell x).progress with
      | finished w =>
        rw [hp] at hnone
        exact congrArg Progress.finished hnone
      | pending | running =>
        rw [hp] at hend
        cases hend

/-- A deed of a computation keeps what attributes carry. -/
theorem performWith_backed (e : Effect) : Keeps Backed (performWith force e) := by
  refine keeps_get fun s _ => ?_
  cases s.handles.get? e.handle with
  | none => exact keeps_pure ()
  | some i =>
    cases e.deed with
    | setValue v =>
      exact keeps_modify fun s h => (Occurs.valued i v).backed_of_mild trivial h
    | freeze => exact freezeWith_backed hforce hleads hresult i
    | addReference => exact keeps_of_mild (addReference_leads working_mild.toHandling i)
    | removeReference =>
      exact keeps_discard (keeps_of_mild (removeReference_leads working_mild.toHandling i))

end Computing

/-- Computing a deferred value freezes attributes and asks for further values, and does
nothing else. -/
theorem forceWithin_computes (n : Nat) (c : CellId) (s : Store) :
    (forceWithin n c).Leads Incident.Computes s :=
  forceWithin_leads computing_computes n c none s (fun i hi => absurd hi (Option.not_mem_none i))
    trivial

/-- **Computing deferred values**, by the levels of deferred values below. -/
theorem forceWithin_backed (n : Nat) : ∀ c, Keeps Backed (forceWithin n c) := by
  induction n with
  | zero => exact fun c => keeps_throw _
  | succ n ih =>
    intro c s h
    cases hp : (s.cell c).progress with
    | finished v => simpa [leaves, forceWithin, hp] using h
    | running => simpa [leaves, forceWithin, hp] using h
    | pending =>
      rcases forceWithin_course (n := n) hp with hsame | ⟨s₂, rfl, hend⟩
      · rwa [hsame]
      · have hbegun := (Occurs.asked hp).backed_of_mild trivial h
        have hdeeds := keeps_forM (performWith_backed ih (forceWithin_computes n)
          fun _ _ _ _ h => forceWithin_result h) (s.cell c).effects _ hbegun
        exact hend.elim (fun ho => ho.backed_of_mild trivial hdeeds) fun ho =>
          ho.backed_of_mild trivial hdeeds

/-- Computing a deferred value keeps what attributes carry. -/
theorem force_backed (c : CellId) : Keeps Backed (Trace.force c) :=
  keeps_get fun s _ => forceWithin_backed (s.cells.size + 1) c

/-- Computing a deferred value, with levels enough for all cells, freezes attributes and
asks for further values. -/
theorem force_computes (c : CellId) (s : Store) : (Trace.force c).Leads Incident.Computes s :=
  leads_get (forceWithin_computes (s.cells.size + 1) c s)

/-- Freezing an attribute keeps what attributes carry. -/
theorem freezeAttribute_backed (i : SlotId) : Keeps Backed (freezeAttribute i) :=
  freezeWith_backed force_backed force_computes (fun _ _ _ _ h => force_result h) i

/-! ### Collections -/

/-- Freezing a collection does, attribute by attribute. -/
theorem freeze_backed (co : Collection) : Keeps Backed co.freeze :=
  keeps_forM (fun _ => keeps_get fun _ _ => keeps_forM freezeAttribute_backed _) _

/-- Turning a collection into a record keeps what attributes carry. -/
theorem intoRecord_backed (co : Collection) : Keeps Backed co.intoRecord := by
  refine keeps_undoing (keeps_bind (freeze_backed co) fun _ =>
    keeps_bind (keeps_modify fun s h => (letGo_follows working_mild s co.pools).backed h)
      fun _ => keeps_pure _) fun s h => ?_
  have hclose : Backed (co.close.leaves s) := keeps_of_mild (close_leads working_mild co) s h
  unfold leaves at hclose
  cases hc : co.close s <;> rw [hc] at hclose <;> exact hclose

/-- Making records for a batch keeps what attributes carry. -/
theorem numberedRecords_backed (p : SetId) (trace : String) (n : Nat) :
    Keeps Backed (Tracer.numberedRecords p trace n) := by
  have hput : ∀ (co : Collection) (d : Definition) (v : Value),
      Keeps Backed (discard (co.setValue d v)) := fun co d v =>
    keeps_discard (keeps_of_mild (setValue_leads working_mild co v trivial))
  induction n with
  | zero => exact keeps_pure []
  | succ n ih =>
    exact keeps_bind ih fun rs => keeps_bind (keeps_of_mild (openCollection_leads working_mild p))
      fun co => keeps_bind (hput co _ _) fun _ => keeps_bind (hput co _ _) fun _ =>
        keeps_bind (intoRecord_backed co) fun r => keeps_pure _

end Store

namespace Tracer

open Store

variable {t : Tracer} {c : Command} {α : Type}

/-! ### The names of deferred values -/

/-- A command that passes the result of an action on defines no name for a deferred value,
if what comes after does not. -/
theorem after_cells {a : Action α} {k : α → Tracer → Reply × Tracer}
    (hk : ∀ x t, (k x t).2.cells = t.cells) : (t.after a k).2.cells = t.cells := by
  unfold after act
  cases a t.store with
  | ok x s => exact hk x _
  | error e s => rfl

/-- Looking up a name that may be missing defines none, either. -/
theorem elim_cells {f : α → Tracer} (o : Option α) (hf : ∀ x, (f x).cells = t.cells) :
    (o.elim t f).cells = t.cells := by
  cases o with
  | none => rfl
  | some x => exact hf x

/-- Taking records out of hand does not touch the names of deferred values. -/
theorem takeRecords_cells (names : List String) :
    ∀ t rs t', takeRecords t names = some (rs, t') → t'.cells = t.cells := by
  induction names with
  | nil =>
    intro t rs t' h
    cases h
    rfl
  | cons n names ih =>
    intro t rs t' h
    obtain ⟨r, -, h⟩ := Option.bind_eq_some_iff.1 h
    obtain ⟨⟨rs', t₁⟩, hrest, h⟩ := Option.bind_eq_some_iff.1 h
    cases h
    exact ih { t with records := t.records.erase n } _ _ hrest

section Cells

variable {out : Reply × Tracer}

/-- Of the commands on attributes only the one that defers a value names one. -/
theorem performAttribute_cells (hc : ∀ n v es, c ≠ .defer n v es)
    (h : t.performAttribute? c = some out) : out.2.cells = t.cells := by
  cases c <;> simp only [performAttribute?, Option.bind_eq_bind, Option.bind_eq_some_iff,
    Option.some.injEq, reduceCtorEq] at h <;> grind [after_cells, nameNew, name, showSlot]

/-- Commands on records name no deferred value. -/
theorem performRecord_cells (h : t.performRecord? c = some out) : out.2.cells = t.cells := by
  cases c <;> simp only [performRecord?, Option.bind_eq_bind, Option.bind_eq_some_iff,
    Option.some.injEq, reduceCtorEq] at h <;> grind [after_cells, elim_cells, name, showSlot]

/-- Commands on exporters and batchers name no deferred value. -/
theorem performDelivery_cells (h : t.performDelivery? c = some out) : out.2.cells = t.cells := by
  cases c <;> simp only [performDelivery?, Option.bind_eq_bind, Option.bind_eq_some_iff,
    Option.some.injEq, reduceCtorEq] at h <;>
      grind [after_cells, elim_cells, takeRecords_cells, showBatcher, keepBatcher]

/-- Names of deferred values come with the values alone. -/
theorem step_cells (t : Tracer) (hc : ∀ n v es, c ≠ .defer n v es) :
    (t.step c).2.cells = t.cells := by
  rw [step_eq_answer]
  change (t.cleared.answer c).2.cells = t.cleared.cells
  unfold answer
  cases ha : t.cleared.performAttribute? c with
  | some out => exact performAttribute_cells hc ha
  | none =>
    cases hr : t.cleared.performRecord? c with
    | some out => exact performRecord_cells hr
    | none =>
      cases hd : t.cleared.performDelivery? c with
      | some out => exact performDelivery_cells hd
      | none => rfl

end Cells

/-! ### Commands and runs -/

/-- What attributes carry is there, and so is what names stand for. -/
structure Backed (t : Tracer) : Prop where
  store : t.store.Backed
  cells : ∀ n x, t.cells.get? n = some x → x < t.store.cells.size

/-- The computations of commands keep what attributes carry. -/
theorem Computation.backed {a : Action α} (ha : Computation a) : a.Keeps Store.Backed := by
  cases ha with
  | force x => exact force_backed x
  | freezeAttribute i => exact freezeAttribute_backed i
  | freeze co => exact freeze_backed co
  | intoRecord co => exact intoRecord_backed co
  | numberedRecords p trace n => exact numberedRecords_backed p trace n

/-- Commands that compute keep what attributes carry. -/
theorem answer_backed (hc : c.Computes) (h : t.store.Backed) : (t.answer c).2.store.Backed :=
  answer_computes (Q := fun out => out.2.store.Backed) hc h fun ht ha hk =>
    after_keeps (ht ▸ h) ha.backed fun x _ hs => (hk x _).symm ▸ hs

/-- What a command pledges is there. -/
theorem Backed.pledges (h : t.Backed) {x : CellId} (hx : t.Pledges x c) :
    x < t.store.cells.size := by
  cases c with
  | copy n handle source =>
    obtain ⟨i, -, hi⟩ := hx
    exact (h.store.backed i x hi).1
  | setDeferred handle n | putDeferred cn d n => exact h.cells n x hx
  | _ => exact hx.elim

/-- **What attributes carry is there after every command.** -/
theorem Backed.step (h : t.Backed) (c : Command) : (t.step c).2.Backed := by
  -- the store first: a command that computes freezes, and any other one only writes what it
  -- pledges
  have hstore : (t.step c).2.store.Backed := by
    by_cases hc : c.Computes
    · have hcleared : t.cleared.store.Backed :=
        (working_mild.of_sets rfl rfl rfl le_rfl : Follows _ t.store t.cleared.store).backed h.store
      exact answer_backed (t := t.cleared) hc hcleared
    · have hkept : (t.step c).2.store.Backed ∧
          t.store.cells.size ≤ (t.step c).2.store.cells.size := by
        refine Follows.keeps (Q := fun m => m.Backed ∧ t.store.cells.size ≤ m.cells.size)
          (fun he ho hm => ⟨ho.backed hm.1 (fun j x hfrozen => ?_) fun j x hpromised => ?_,
            hm.2.trans ho.size_le⟩) (step_grants t c) ⟨h.store, le_rfl⟩
        · subst hfrozen
          exact hc he
        · subst hpromised
          exact (h.pledges he).trans_le hm.2
      exact hkept.1
  refine ⟨hstore, fun n x hx => ?_⟩
  -- then the names: only a command that defers a value gives one, to the cell that it adds
  by_cases hc : ∃ n v es, c = .defer n v es
  · obtain ⟨m, v, es, rfl⟩ := hc
    change (t.cells.insert m t.store.cells.size).get? n = some x at hx
    change x < (t.store.cells.push _).size
    rw [Keyed.get?_insert] at hx
    rw [Array.size_push]
    split_ifs at hx
    · exact (Option.some.inj hx).symm.le.trans_lt (Nat.lt_succ_self _)
    · exact (h.cells n x hx).trans (Nat.lt_succ_self _)
  · rw [step_cells t fun n v es h => hc ⟨n, v, es, h⟩] at hx
    exact (h.cells n x hx).trans_le (step_follows t c).size_le

/-- What attributes carry and what names stand for is there after every run. -/
theorem Backed.run (cs : List Command) : ∀ {t : Tracer}, t.Backed → (t.run cs).2.Backed := by
  induction cs with
  | nil => exact fun h => h
  | cons c cs ih => exact fun h => ih (h.step c)

/-- A new tracer names nothing and holds nothing. -/
theorem backed_empty : ({} : Tracer).Backed := by
  refine ⟨⟨tidy_empty, fun i => ?_⟩, fun n x hx => ?_⟩
  · exact Slot.Backed.of_deferred (by rw [slot_of_size_le (Nat.zero_le i)]; rfl)
  · rw [Keyed.get?_empty] at hx
    cases hx

end Tracer
end Telemetry

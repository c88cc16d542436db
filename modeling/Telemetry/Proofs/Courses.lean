/-
# Commands consist of deeds

Whatever commands are given to a depot, what they do to its pools is a course
of deeds (`run_course`), so what holds after every course holds after every run.
There is one lemma for each operation.  What carries the induction over a run is
that names, groups and tasks stand for pools and items that are there (`Sound`).
-/

import Telemetry.Proofs.Deeds
import Telemetry.Proofs.Keyed

namespace Telemetry

namespace Keyed

variable {α : Type} {m : Keyed α} {k j : String} {v w : α}

/-- After an insertion a name stands for the new thing or for what it stood for. -/
theorem of_get?_insert (h : (m.insert k v).get? j = some w) : w = v ∨ m.get? j = some w := by
  rw [get?_insert] at h
  split_ifs at h
  · exact Or.inl (Option.some.inj h).symm
  · exact Or.inr h

/-- After an erasure a name stands for what it stood for. -/
theorem of_get?_erase (h : (m.erase k).get? j = some w) : m.get? j = some w := by
  rw [get?_erase] at h
  split_ifs at h
  exact h

end Keyed

namespace Depot

variable {d d' d'' : Depot} {p : PoolId} {i : ItemId} {e : Deed}

/-! ### Names stand for what is there -/

/-- The pools among some members are there. -/
def There (d : Depot) (ms : List Member) : Prop := ∀ p, .pool p ∈ ms → p < d.shelves.size

/-- What names, groups and tasks stand for is there. -/
structure Sound (d : Depot) : Prop where
  pools : ∀ n p, d.pools.get? n = some p → p < d.shelves.size
  handles : ∀ n i, d.handles.get? n = some i → i < d.items.size
  groups : ∀ n g, d.groups.get? n = some g → d.There g.members
  tasks : ∀ n t, d.tasks.get? n = some t → d.There t.members

/-- The names of pools, items, groups and tasks. -/
def names (d : Depot) : Keyed PoolId × Keyed ItemId × Keyed Group × Keyed Task :=
  (d.pools, d.handles, d.groups, d.tasks)

/-- No members need no pool. -/
theorem There.nil (d : Depot) : d.There [] := fun _ hp => absurd hp List.not_mem_nil

/-- Pools that are there stay there when the depot grows. -/
theorem There.mono {ms : List Member} (h : d.There ms) (hs : d.shelves.size ≤ d'.shelves.size) :
    d'.There ms :=
  fun p hp => (h p hp).trans_le hs

namespace Sound

/-- Names that stand for the same things are sound in a depot that is no smaller. -/
theorem of_names (h : Sound d) (hn : d'.names = d.names) (hi : d.items.size ≤ d'.items.size)
    (hs : d.shelves.size ≤ d'.shelves.size) : Sound d' := by
  simp only [names, Prod.mk.injEq] at hn
  obtain ⟨hpools, hhandles, hgroups, htasks⟩ := hn
  exact ⟨fun n p hp => (h.pools n p (hpools ▸ hp)).trans_le hs,
    fun n i hi' => (h.handles n i (hhandles ▸ hi')).trans_le hi,
    fun n g hg => (h.groups n g (hgroups ▸ hg)).mono hs,
    fun n t ht => (h.tasks n t (htasks ▸ ht)).mono hs⟩

/-- A name may be given to an item that is there. -/
theorem insertHandle (h : Sound d) (n : String) (hi : i < d.items.size) :
    Sound { d with handles := d.handles.insert n i } :=
  { h with
    handles := fun m j hj => (Keyed.of_get?_insert hj).elim (fun hj => hj ▸ hi) (h.handles m j) }

/-- The name of an item may be taken away. -/
theorem eraseHandle (h : Sound d) (n : String) : Sound { d with handles := d.handles.erase n } :=
  { h with handles := fun m j hj => h.handles m j (Keyed.of_get?_erase hj) }

/-- The name of a pool may be taken away. -/
theorem erasePool (h : Sound d) (n : String) : Sound { d with pools := d.pools.erase n } :=
  { h with pools := fun m q hq => h.pools m q (Keyed.of_get?_erase hq) }

/-- A group may be named if its pools are there. -/
theorem insertGroup (h : Sound d) (n : String) {g : Group} (hg : d.There g.members) :
    Sound { d with groups := d.groups.insert n g } :=
  { h with
    groups := fun m f hf => (Keyed.of_get?_insert hf).elim (fun hf => hf ▸ hg) (h.groups m f) }

/-- The name of a group may be taken away. -/
theorem eraseGroup (h : Sound d) (n : String) : Sound { d with groups := d.groups.erase n } :=
  { h with groups := fun m f hf => h.groups m f (Keyed.of_get?_erase hf) }

/-- A task may be set up if its pools are there. -/
theorem insertTask (h : Sound d) (n : String) {t : Task} (ht : d.There t.members) :
    Sound { d with tasks := d.tasks.insert n t } :=
  { h with tasks := fun m f hf => (Keyed.of_get?_insert hf).elim (fun hf => hf ▸ ht) (h.tasks m f) }

/-- A task may be taken away. -/
theorem eraseTask (h : Sound d) (n : String) : Sound { d with tasks := d.tasks.erase n } :=
  { h with tasks := fun m f hf => h.tasks m f (Keyed.of_get?_erase hf) }

end Sound

/-! ### Operations -/

/-- Deeds lead from one depot to the other, and names stand for what is there
afterwards. -/
structure Leads (d d' : Depot) : Prop where
  course : ∃ es, Course d es d'
  sound : Sound d'

namespace Leads

/-- No deeds lead from a depot to itself. -/
theorem refl (h : Sound d) : Leads d d := ⟨⟨[], .refl⟩, h⟩

/-- Deeds that follow each other lead all the way. -/
theorem trans (h : Leads d d') (h' : Leads d' d'') : Leads d d'' := by
  obtain ⟨es, hes⟩ := h.course
  obtain ⟨fs, hfs⟩ := h'.course
  exact ⟨⟨es ++ fs, hes.trans hfs⟩, h'.sound⟩

/-- Names and the like change afterwards. -/
theorem quiet (h : Leads d d') (hs : Sound d'') (hitems : d''.items = d'.items)
    (hshelves : d''.shelves = d'.shelves) : Leads d d'' := by
  obtain ⟨es, hes⟩ := h.course
  exact ⟨⟨es, hes.quiet hitems hshelves⟩, hs⟩

/-- Items are only ever added. -/
theorem items (h : Leads d d') : d.items.size ≤ d'.items.size := by
  obtain ⟨es, hes⟩ := h.course
  exact hes.size_le.1

/-- Pools are only ever added. -/
theorem shelves (h : Leads d d') : d.shelves.size ≤ d'.shelves.size := by
  obtain ⟨es, hes⟩ := h.course
  exact hes.size_le.2

/-- The pools of members stay there. -/
theorem there {ms : List Member} (h : Leads d d') (hms : d.There ms) : d'.There ms :=
  hms.mono h.shelves

end Leads

/-- Only names and the like change. -/
theorem Sound.quiet (h : Sound d') (hitems : d'.items = d.items)
    (hshelves : d'.shelves = d.shelves) : Leads d d' :=
  ⟨⟨[], Course.refl.quiet hitems hshelves⟩, h⟩

/-- Only the clock and the log change. -/
theorem Sound.still (h : Sound d) (hn : d'.names = d.names) (hitems : d'.items = d.items)
    (hshelves : d'.shelves = d.shelves) : Leads d d' :=
  Sound.quiet (h.of_names hn (congrArg Array.size hitems).ge (congrArg Array.size hshelves).ge)
    hitems hshelves

/-- A deed that changes no names. -/
theorem Sound.does (h : Sound d) (he : Does d e d') (hn : d'.names = d.names) : Leads d d' :=
  ⟨⟨[e], .single he⟩, h.of_names hn he.effect.items he.effect.shelves⟩

/-- Letting go of items is no deed. -/
theorem letGo_leads (h : Sound d) (items : List ItemId) : Leads d (d.letGo items) :=
  h.still rfl rfl rfl

/-- Naming an item is no deed, and lets go of the item that had the name. -/
theorem name_leads (h : Sound d) (n : String) (hi : i < d.items.size) : Leads d (d.name n i) :=
  have hafter : Sound (d.name n i) := (h.insertHandle n hi).of_names rfl le_rfl le_rfl
  hafter.quiet rfl rfl

/-- Taking from a pool is a deed, and what it hands out is there. -/
theorem take_leads (h : Sound d) (hp : p < d.shelves.size) :
    Leads d (d.take p).2 ∧ ∀ i, (d.take p).1 = some i → i < (d.take p).2.items.size := by
  have hnames : (d.take p).2.names = d.names ∧
      ∀ i, (d.take p).1 = some i → i < (d.take p).2.items.size := by
    cases hs : (d.shelf p).pool.stored with
    | nil =>
      rw [(take_of_nil hs).2]
      refine ⟨rfl, fun i hi => ?_⟩
      obtain rfl := Option.some.inj hi
      simp [size_make, setPool]
    | cons j rest =>
      have hcons := take_of_cons hs
      dsimp only at hcons
      split_ifs at hcons with hm <;> rw [hcons.2]
      · refine ⟨rfl, fun i hi => ?_⟩
        obtain rfl := Option.some.inj hi
        exact (lt_size_of_isMarked hm).trans_le Array.size_modify.ge
      · exact ⟨rfl, fun i hi => absurd hi.symm (Option.some_ne_none i)⟩
  exact ⟨h.does (.takes hp) hnames.1, hnames.2⟩

/-- Offering an item is a deed. -/
theorem put_leads (h : Sound d) (hp : p < d.shelves.size) (hi : i < d.items.size) :
    Leads d (d.put p i).2 := by
  refine h.does (.puts hp hi) ?_
  cases hm : d.isMarked i with
  | true => rw [put_of_marked p hm]; rfl
  | false =>
    by_cases hroom : (d.shelf p).pool.stored.length < (d.shelf p).pool.capacity
    · rw [put_of_room hm hroom]; rfl
    · rw [put_of_full hm hroom]; rfl

/-- The end of a window is a deed. -/
theorem tickPool_leads (h : Sound d) (hp : p < d.shelves.size) : Leads d (d.tickPool p).2 :=
  h.does (.ticks hp) rfl

/-- Letting go of a pool comes about by deeds. -/
theorem letGoPool_leads (h : Sound d) (hp : p < d.shelves.size) : Leads d (d.letGoPool p) := by
  unfold letGoPool
  split_ifs
  · exact .refl h
  · have hgone := h.does (.dissolves hp) rfl
    exact hgone.trans (letGo_leads hgone.sound _)

/-- The pools of members are let go of one by one. -/
theorem letGoMembers_leads (ms : List Member) :
    ∀ {d : Depot}, Sound d → d.There ms → Leads d (d.letGoMembers ms) := by
  induction ms with
  | nil => exact fun h _ => .refl h
  | cons m ms ih =>
    intro d h hms
    have hrest : d.There ms := fun p hp => hms p (List.mem_cons_of_mem _ hp)
    cases m with
    | faulty text => exact ih h hrest
    | pool p =>
      rw [letGoMembers]
      have hfirst : Leads d (if ms.contains (.pool p) then d else d.letGoPool p) := by
        split_ifs
        · exact .refl h
        · exact letGoPool_leads h (hms p List.mem_cons_self)
      exact hfirst.trans (ih hfirst.sound (hfirst.there hrest))

/-- Taking many items comes about by as many deeds, and all that is handed out is there. -/
theorem takeMany_leads (n : Nat) :
    ∀ {d : Depot}, Sound d → p < d.shelves.size → Leads d (d.takeMany p n).2 ∧
      ∀ is, (d.takeMany p n).1 = some is → ∀ i ∈ is, i < (d.takeMany p n).2.items.size := by
  induction n with
  | zero =>
    intro d h _
    exact ⟨.refl h, fun is his i hi => by
      obtain rfl := Option.some.inj his
      exact absurd hi List.not_mem_nil⟩
  | succ n ih =>
    intro d h hp
    obtain ⟨htake, hthere⟩ := take_leads h hp
    rw [takeMany]
    -- an item that cannot be taken ends the taking
    rcases ht : d.take p with ⟨_ | i, d₁⟩ <;>
      rw [ht] at htake hthere <;> dsimp only at htake hthere ⊢
    · exact ⟨htake, fun is his => nomatch his⟩
    · obtain ⟨hmany, hall⟩ := ih htake.sound (hp.trans_le htake.shelves)
      rcases hm : d₁.takeMany p n with ⟨_ | is, d₂⟩ <;> rw [hm] at hmany hall <;>
        dsimp only at hmany hall ⊢
      · exact ⟨htake.trans hmany, fun is his => nomatch his⟩
      · refine ⟨htake.trans hmany, fun is' his j hj => ?_⟩
        obtain rfl := Option.some.inj his
        rcases List.mem_cons.1 hj with rfl | hj
        · exact (hthere _ rfl).trans_le hmany.items
        · exact hall is rfl j hj

/-- Offering many items comes about by as many deeds. -/
theorem putMany_leads (is : List ItemId) :
    ∀ {d : Depot}, Sound d → p < d.shelves.size → (∀ i ∈ is, i < d.items.size) →
      Leads d (d.putMany p is).2 := by
  induction is with
  | nil => exact fun h _ _ => .refl h
  | cons i is ih =>
    intro d h hp his
    have hput := put_leads h hp (his i List.mem_cons_self)
    exact hput.trans (ih hput.sound (hp.trans_le hput.shelves) fun j hj =>
      (his j (List.mem_cons_of_mem _ hj)).trans_le hput.items)

/-- The windows of members end one by one. -/
theorem tickMembers_leads (ms : List Member) :
    ∀ {d : Depot}, Sound d → d.There ms → Leads d (d.tickMembers ms).2.2 := by
  induction ms with
  | nil => exact fun h _ => .refl h
  | cons m ms ih =>
    intro d h hms
    cases m with
    | faulty text => exact .refl h
    | pool p =>
      have hfirst := tickPool_leads h (hms p List.mem_cons_self)
      have hrest := hfirst.there fun q hq => hms q (List.mem_cons_of_mem _ hq)
      exact hfirst.trans (ih hfirst.sound hrest)

/-! ### Upkeep in the background -/

/-- Serving a deadline ends the windows of the members of its task. -/
theorem serve_leads (h : Sound d) (n : String) {t : Task} (ht : d.There t.members) :
    Leads d (d.serve n t) := by
  have htick := tickMembers_leads t.members h ht
  have ht' := htick.there ht
  unfold serve
  rcases hm : d.tickMembers t.members with ⟨us, _ | text, d₁⟩ <;> rw [hm] at htick ht' <;>
    dsimp only at htick ht' ⊢
  · exact htick.quiet ((htick.sound.eraseTask n).insertTask n ht') rfl rfl
  · have hend : Leads d₁
        { d₁ with tasks := d₁.tasks.insert n { t with running := false, members := [] } } :=
      Sound.quiet (htick.sound.insertTask n (There.nil _)) rfl rfl
    exact (htick.trans hend).trans (letGoMembers_leads _ hend.sound (hend.there ht'))

/-- A task that is due is among the tasks. -/
theorem due?_mem {limit : Nat} {l : List (String × Task)} {n : String} {t : Task} {w : Nat}
    (h : due? limit l = some (n, t, w)) : (n, t) ∈ l := by
  induction l generalizing n t w with
  | nil => cases h
  | cons x l ih =>
    obtain ⟨m, u⟩ := x
    rw [due?] at h
    split at h
    · rename_i hrest
      split_ifs at h
      · cases h
        exact List.mem_cons_of_mem _ (ih hrest)
      · cases h
        exact List.mem_cons_self
    · split_ifs at h
      cases h
      exact List.mem_cons_self
    · exact List.mem_cons_of_mem _ (ih h)

/-- A number of deadlines is served by deeds, by induction on the number. -/
theorem serveWithin_leads (limit n : Nat) :
    ∀ {d : Depot}, Sound d → Leads d (d.serveWithin limit n) := by
  induction n with
  | zero => exact fun h => .refl h
  | succ n ih =>
    intro d h
    rw [serveWithin]
    split
    · exact .refl h
    · rename_i m t w hdue
      have ht : d.There t.members := h.tasks m t (Keyed.get?_eq_some_iff.2 (due?_mem hdue))
      have hclock : Leads d { d with now := max d.now w } := h.still rfl rfl rfl
      have hserve := serve_leads hclock.sound m (hclock.there ht)
      exact (hclock.trans hserve).trans (ih hserve.sound)

/-- Serving all that is due up to a moment comes about by deeds. -/
theorem serveUntil_leads (h : Sound d) (limit : Nat) : Leads d (d.serveUntil limit) :=
  serveWithin_leads limit _ h

/-- Sleeping serves what falls due on the way. -/
theorem sleep_leads (h : Sound d) (span : Nat) : Leads d (d.sleep span) := by
  have hserved := serveUntil_leads h (d.now + span)
  exact hserved.trans (hserved.sound.still rfl rfl rfl)

/-- A leap moves the clock, and then serves what is due. -/
theorem leap_leads (h : Sound d) (span : Nat) : Leads d (d.leap span) := by
  have hclock : Leads d { d with now := d.now + span } := h.still rfl rfl rfl
  exact hclock.trans (serveUntil_leads hclock.sound _)

/-- Stopping a task lets go of the pools it holds. -/
theorem stop_leads (h : Sound d) (n : String) {t : Task} (ht : d.There t.members) :
    Leads d (d.stop n t).2 := by
  have herase : Leads d { d with tasks := d.tasks.erase n } := Sound.quiet (h.eraseTask n) rfl rfl
  unfold stop
  split_ifs
  · have hreport : Leads d ({ d with tasks := d.tasks.erase n }.report [.upkeepStopped t.ticks]) :=
      herase.trans (herase.sound.still rfl rfl rfl)
    exact hreport.trans (letGoMembers_leads _ hreport.sound (hreport.there ht))
  · exact herase

/-- Starting a task serves what is due at once. -/
theorem start_leads (h : Sound d) (n : String) {g : Group} (hg : d.There g.members) :
    Leads d (d.start n g) := by
  have hended : ∀ t : Task, t.members = [] → Leads d { d with tasks := d.tasks.insert n t } :=
    fun t ht => Sound.quiet (h.insertTask n (ht ▸ There.nil _)) rfl rfl
  have hstarted : ∀ t : Task, t.members = g.members → Leads d
      ({ d with tasks := d.tasks.insert n t }.report [.upkeepStarted g.members.length]) :=
    fun t ht => Sound.quiet ((h.insertTask n (ht ▸ hg)).of_names rfl le_rfl le_rfl) rfl rfl
  unfold start
  dsimp only
  split_ifs
  · exact (hended _ rfl).trans
      (letGoMembers_leads _ (hended _ rfl).sound ((hended _ rfl).there hg))
  · exact (hstarted _ rfl).trans (serveUntil_leads (hstarted _ rfl).sound _)

/-! ### Commands -/

/-- The members that names stand for have pools that are there. -/
theorem members?_there (h : Sound d) {names : List (String ⊕ String)} {ms : List Member}
    (hms : d.members? names = some ms) : d.There ms := by
  unfold members? at hms
  induction names generalizing ms with
  | nil =>
    obtain rfl := Option.some.inj hms
    exact There.nil d
  | cons name names ih =>
    simp only [List.mapM_cons, Option.bind_eq_bind, Option.bind_eq_some_iff, Option.pure_def,
      Option.some.injEq] at hms
    obtain ⟨m, hm, rest, hrest, rfl⟩ := hms
    intro p hp
    rcases List.mem_cons.1 hp with rfl | hp
    · cases name with
      | inl n =>
        obtain ⟨q, hq, hmember⟩ := Option.map_eq_some_iff.1 hm
        obtain rfl := Member.pool.inj hmember
        exact h.pools n q hq
      | inr text => exact nomatch hm
    · exact ih hrest p hp

/-- A pool that is set up, under its name. -/
theorem setUp_leads (h : Sound d) (n kind : String) (config : Pool.Config) :
    Leads d { d with
      shelves := d.shelves.push { kind := kind, label := n, pool := .ofConfig config }
      pools := d.pools.insert n d.shelves.size } := by
  have hsize : d.shelves.size < (d.shelves.push
      { kind := kind, label := n, pool := .ofConfig config }).size := by simp
  refine ⟨⟨_, (Course.single (.opens _ config rfl rfl)).quiet rfl rfl⟩, ?_, h.handles,
    fun m g hg => (h.groups m g hg).mono hsize.le, fun m t ht => (h.tasks m t ht).mono hsize.le⟩
  exact fun m p hp => (Keyed.of_get?_insert hp).elim (fun hp => hp ▸ hsize)
    fun hp => (h.pools m p hp).trans hsize

/-- What a command does to pools is a course of deeds. -/
theorem perform?_leads (h : Sound d) {c : Command} {r : Reply} (hc : d.perform? c = some (r, d')) :
    Leads d d' := by
  cases c <;> simp only [perform?, Option.bind_eq_bind, Option.bind_eq_some_iff, Option.some.injEq,
    Prod.mk.injEq] at hc
  case setUp n kind config =>
    obtain ⟨-, rfl⟩ := hc
    have hopened := setUp_leads h n kind config
    cases hold : d.pools.get? n with
    | none => exact hopened
    | some p =>
      -- the pool that had the name before is let go of
      have hthere := (h.pools n p hold).trans_le hopened.shelves
      exact hopened.trans (letGoPool_leads hopened.sound hthere)
  case take n handle =>
    obtain ⟨p, hp, hc⟩ := hc
    obtain ⟨htake, hthere⟩ := take_leads h (h.pools n p hp)
    split at hc <;> rename_i ht <;> rw [ht] at htake hthere <;> cases hc
    · exact htake.trans (name_leads htake.sound handle (hthere _ rfl))
    · exact htake
  case put n handle keep =>
    obtain ⟨p, hp, i, hi, -, rfl⟩ := hc
    have hheld : Leads d (if keep then d else { d with handles := d.handles.erase handle }) := by
      split_ifs
      · exact .refl h
      · exact Sound.quiet (h.eraseHandle handle) rfl rfl
    -- the handle is given up before the item is offered, unless the user keeps it
    exact hheld.trans (put_leads hheld.sound ((h.pools n p hp).trans_le hheld.shelves)
      ((h.handles handle i hi).trans_le hheld.items))
  case share handle other =>
    obtain ⟨i, hi, -, rfl⟩ := hc
    exact name_leads h other (h.handles handle i hi)
  case drop handle =>
    obtain ⟨i, -, -, rfl⟩ := hc
    have herased : Leads d { d with handles := d.handles.erase handle } :=
      Sound.quiet (h.eraseHandle handle) rfl rfl
    exact herased.trans (letGo_leads herased.sound [i])
  case look handle =>
    obtain ⟨i, -, -, rfl⟩ := hc
    exact .refl h
  case cycle n count =>
    obtain ⟨p, hp, hc⟩ := hc
    obtain ⟨htake, hthere⟩ := takeMany_leads count h (h.pools n p hp)
    split at hc <;> rename_i ht <;> rw [ht] at htake hthere <;> cases hc
    · exact htake.trans (putMany_leads _ htake.sound ((h.pools n p hp).trans_le htake.shelves)
        (hthere _ rfl))
    · exact htake
  case update n =>
    obtain ⟨p, hp, -, rfl⟩ := hc
    exact tickPool_leads h (h.pools n p hp)
  case describe n =>
    obtain ⟨p, -, -, rfl⟩ := hc
    exact .refl h
  case dropPool n =>
    obtain ⟨p, hp, -, rfl⟩ := hc
    have herased : Leads d { d with pools := d.pools.erase n } :=
      Sound.quiet (h.erasePool n) rfl rfl
    exact herased.trans (letGoPool_leads herased.sound (h.pools n p hp))
  case form g rhythm names =>
    obtain ⟨ms, hms, -, rfl⟩ := hc
    have hformed : Leads d { d with groups := d.groups.insert g ⟨rhythm, ms⟩ } :=
      Sound.quiet (h.insertGroup g (members?_there h hms)) rfl rfl
    cases hold : d.groups.get? g with
    | none => exact hformed
    | some old =>
      exact hformed.trans (letGoMembers_leads _ hformed.sound (hformed.there (h.groups g old hold)))
  case tick g =>
    obtain ⟨group, hg, -, rfl⟩ := hc
    exact tickMembers_leads _ h (h.groups g group hg)
  case start g task =>
    obtain ⟨group, hg, -, rfl⟩ := hc
    have hformed : Leads d { d with groups := d.groups.erase g } :=
      Sound.quiet (h.eraseGroup g) rfl rfl
    have hthere := hformed.there (h.groups g group hg)
    split
    · rename_i t ht
      -- a task of that name is stopped before the new one is started
      have hstop := stop_leads hformed.sound task (hformed.there (h.tasks task t ht))
      exact (hformed.trans hstop).trans (start_leads hstop.sound task (hstop.there hthere))
    · exact hformed.trans (start_leads hformed.sound task hthere)
  case sleep ms =>
    obtain ⟨-, rfl⟩ := hc
    exact sleep_leads h _
  case leap ms =>
    obtain ⟨-, rfl⟩ := hc
    exact leap_leads h _
  case lookTask task =>
    obtain ⟨t, -, -, rfl⟩ := hc
    exact .refl h
  case stop task =>
    obtain ⟨t, ht, -, rfl⟩ := hc
    exact stop_leads h task (h.tasks task t ht)
  case dropTask task =>
    obtain ⟨t, ht, -, rfl⟩ := hc
    exact stop_leads h task (h.tasks task t ht)

/-- Each command comes about by deeds, and leaves the names sound. -/
theorem step_leads (h : Sound d) (c : Command) : Leads d (d.step c).2 := by
  have hblank : Leads d { d with log := #[], dropped := #[] } := h.still rfl rfl rfl
  unfold step
  dsimp only
  cases hc : ({ d with log := #[], dropped := #[] } : Depot).perform? c with
  | none => exact hblank
  | some answer => exact hblank.trans (perform?_leads (r := answer.1) hblank.sound hc)

/-- A run of commands comes about by deeds, by induction on the run. -/
theorem run_leads (cs : List Command) : ∀ {d : Depot}, Sound d → Leads d (d.run cs).2 := by
  induction cs with
  | nil => exact fun h => .refl h
  | cons c cs ih =>
    intro d h
    have hstep := step_leads h c
    exact hstep.trans (ih hstep.sound)

/-- In an empty depot nothing has a name. -/
theorem Sound.empty : Sound {} := ⟨nofun, nofun, nofun, nofun⟩

/-- **Whatever commands are given, what they do to pools is a course of
deeds.** -/
theorem run_course (cs : List Command) : ∃ es, Course {} es (({} : Depot).run cs).2 :=
  (run_leads cs Sound.empty).course

end Depot
end Telemetry

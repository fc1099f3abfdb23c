/-
When an edit sends a command.

An edit of a declaration is to tell the renderer of a change, of every change, and of nothing else.
Whether there is a change is decided by comparing atoms; `Tells` says what comes of it, with the
need for a command as a condition on texts: an edit that needs one appends it, before the sink is
told, or is refused by a closed queue, and one that needs none is quietly done with, whether the
queue is closed or not.  Nothing is assumed of the sink, so a result that does not depend on it is
one in which it was not told.

* `Tells.of_cases` — the three cases of an edit exclude each other;
* `set_tells`, `remove_tells` — setting and removing, after any history (`Course`);
* `edits_tell` — both of them, for declarations that may have copied from anywhere;
* `copied_colour_signalled` — what has been copied from another context does not count.
-/
import ScriptHost.Proofs.Style.Courses
import ScriptHost.Proofs.Style.Foreign

namespace ScriptHost.Style

open Holdings (Op)

variable {ε α : Type} {s : Scene ε} {d : Declaration} {sink : ContextId → Scene ε → Scene ε}
  {c : Command}

/-! ### What comes of an edit -/

/-- All declarations are as they were. -/
def SameSheets (s h : Holdings) : Prop :=
  ∀ i, h.properties i = s.properties i ∧ sheet h i = sheet s i

namespace Scene

/-- The command waits, as the last one. -/
def queued (c : Command) (s : Scene ε) : Scene ε :=
  { s with
    queue := { s.queue with pending := s.queue.pending.push c }
    logs := s.logs ++ [.commandAppended s.queue.context c.kind c.target] }

/-- The command waits, and unless the queue is batching, the sink has been told. -/
def told (sink : ContextId → Scene ε → Scene ε) (c : Command) (s : Scene ε) : Scene ε :=
  if s.queue.batching then s.queued c else sink s.queue.context (s.queued c)

theorem append_of_open (hopen : s.queue.closed = false) :
    (outlet sink).append c s = (.ok (), told sink c s) := by
  have hpush : s.queue.push c = .ok { s.queue with pending := s.queue.pending.push c } :=
    Queue.push_eq_ok_iff.mpr ⟨hopen, rfl⟩
  rw [Outlet.append, show (outlet sink).queue s = s.queue from rfl, hpush, told]
  cases hbatching : s.queue.batching with
  | true =>
    rw [if_pos rfl]
    refine congrArg (Prod.mk _) (if_neg ?_)
    simp [Queue.signals, hbatching]
  | false =>
    rw [if_neg Bool.false_ne_true]
    refine congrArg (Prod.mk _) (if_pos ?_)
    simp [Queue.signals, hbatching]

end Scene

/-- Whatever the sink does, the edit succeeds. -/
def Succeeds (edit : (ContextId → Scene ε → Scene ε) → Except Fault α × Scene ε) : Prop :=
  ∀ sink, ∃ a, (edit sink).1 = .ok a

/-- The edit succeeds and appends this one command: it is the last one when the sink is told, and
what the edit does besides is done with atoms. -/
def Appends (c : Command) (s : Scene ε)
    (edit : (ContextId → Scene ε → Scene ε) → Except Fault α × Scene ε) : Prop :=
  Succeeds edit ∧ ∀ sink, ∃ h h' : Holdings, (edit sink).2 =
    { Scene.told sink c { s with holdings := h } with holdings := h' }

/-- The edit leaves everything but atoms and the log alone, all declarations too, and whatever the
sink would do is not done. -/
def Silent (s : Scene ε)
    (edit : (ContextId → Scene ε → Scene ε) → Except Fault α × Scene ε) : Prop :=
  ∃ (h : Holdings) (logs : List Log),
    (∀ sink, (edit sink).2 = { s with holdings := h, logs := logs }) ∧ SameSheets s.holdings h

/-- The edit needs a command exactly under this condition. -/
structure Tells (c : Command) (needed : Prop) (s : Scene ε)
    (edit : (ContextId → Scene ε → Scene ε) → Except Fault α × Scene ε) : Prop where
  appends : Appends c s edit ↔ needed ∧ s.queue.closed = false
  silent : Silent s edit ∧ Succeeds edit ↔ ¬ needed
  fails : ∀ sink fault, (edit sink).1 = .error fault ↔
    fault = .contextDisposed s.queue.context ∧ needed ∧ s.queue.closed = true
  harmless : ∀ sink fault, (edit sink).1 = .error fault → Silent s edit

variable {edit : (ContextId → Scene ε → Scene ε) → Except Fault α × Scene ε} {needed : Prop}

theorem Appends.not_silent (h : Appends c s edit) : ¬ Silent s edit := by
  rintro ⟨h₁, logs, hsilent, -⟩
  obtain ⟨h₂, h₃, happended⟩ := h.2 Scene.quiet
  have hqueue := congrArg Scene.queue (happended.symm.trans (hsilent Scene.quiet))
  have htold : (Scene.told Scene.quiet c { s with holdings := h₂ }).queue =
      { s.queue with pending := s.queue.pending.push c } := by
    rw [Scene.told]
    split <;> rfl
  have hpending : s.queue.pending.push c = s.queue.pending :=
    congrArg Queue.pending (htold.symm.trans hqueue)
  exact absurd (congrArg Array.size hpending) (by simp)

/-- An edit that falls into one of three cases tells of what it needs to. -/
theorem Tells.of_cases (hidle : ¬ needed → Silent s edit ∧ Succeeds edit)
    (hopen : needed → s.queue.closed = false → Appends c s edit)
    (hclosed : needed → s.queue.closed = true → Silent s edit ∧
      ∀ sink, (edit sink).1 = .error (.contextDisposed s.queue.context)) :
    Tells c needed s edit := by
  have hfails : ∀ sink fault, (edit sink).1 = .error fault →
      fault = .contextDisposed s.queue.context ∧ needed ∧ s.queue.closed = true := by
    intro sink fault hfault
    by_cases hneeded : needed
    · cases hqueue : s.queue.closed with
      | false =>
        obtain ⟨a, ha⟩ := (hopen hneeded hqueue).1 sink
        exact absurd (ha.symm.trans hfault) (by simp)
      | true =>
        have herror := (hclosed hneeded hqueue).2 sink
        exact ⟨Except.error.inj (hfault.symm.trans herror), hneeded, rfl⟩
    · obtain ⟨a, ha⟩ := (hidle hneeded).2 sink
      exact absurd (ha.symm.trans hfault) (by simp)
  refine ⟨⟨fun happends => ?_, fun ⟨hneeded, hqueue⟩ => hopen hneeded hqueue⟩,
    ⟨fun ⟨hsilent, hok⟩ hneeded => ?_, hidle⟩,
    fun sink fault => ⟨hfails sink fault, ?_⟩, fun sink fault hfault => ?_⟩
  · refine ⟨not_not.mp fun hidle' => happends.not_silent (hidle hidle').1, ?_⟩
    by_contra hqueue
    have hneeded : needed := not_not.mp fun hidle' => happends.not_silent (hidle hidle').1
    exact happends.not_silent (hclosed hneeded (by simpa using hqueue)).1
  · cases hqueue : s.queue.closed with
    | false => exact (hopen hneeded hqueue).not_silent hsilent
    | true =>
      obtain ⟨a, ha⟩ := hok Scene.quiet
      exact absurd (ha.symm.trans ((hclosed hneeded hqueue).2 Scene.quiet)) (by simp)
  · rintro ⟨rfl, hneeded, hqueue⟩
    exact (hclosed hneeded hqueue).2 sink
  · obtain ⟨-, hneeded, hqueue⟩ := hfails sink fault hfault
    exact (hclosed hneeded hqueue).1

/-! ### Outcomes in a scene -/

section Outcomes

variable {key v : Atom}

theorem Desk.SetOutcome.eq_of_same {r : Except Fault Unit × Scene ε}
    (h : Desk.SetOutcome (Scene.desk sink) d key v s r)
    (hset : (s.holdings.properties d.style).value? key = some v) :
    r = (.ok (), { s with holdings := (s.holdings.letGo key).letGo v }) := by
  cases h with
  | same => rfl
  | made hne => exact absurd hset hne
  | refused hne => exact absurd hset hne

theorem Desk.SetOutcome.eq_of_open {r : Except Fault Unit × Scene ε}
    (h : Desk.SetOutcome (Scene.desk sink) d key v s r)
    (hne : (s.holdings.properties d.style).value? key ≠ some v)
    (hopen : s.queue.closed = false) :
    let told := Scene.told sink
      (command d.target (s.holdings.heap.text key) (s.holdings.heap.text v)) s
    r = (.ok (), { told with holdings := told.holdings.assign d.style key v }) := by
  cases h with
  | same hset => exact absurd hset hne
  | made _ happend =>
    obtain ⟨-, rfl⟩ := Prod.mk.inj ((Scene.append_of_open hopen).symm.trans happend)
    rfl
  | refused _ happend =>
    exact absurd (congrArg Prod.fst ((Scene.append_of_open hopen).symm.trans happend)) (by simp)

theorem Desk.SetOutcome.eq_of_closed {r : Except Fault Unit × Scene ε}
    (h : Desk.SetOutcome (Scene.desk sink) d key v s r)
    (hne : (s.holdings.properties d.style).value? key ≠ some v)
    (hclosed : s.queue.closed = true) :
    r = (.error (.contextDisposed s.queue.context),
      { s with
        holdings := (s.holdings.letGo key).letGo v
        logs := s.logs ++ [.commandRefused s.queue.context .setStyle d.target] }) := by
  cases h with
  | same hset => exact absurd hset hne
  | made _ happend =>
    exact absurd ((Scene.open_of_append happend).symm.trans hclosed) Bool.false_ne_true
  | refused _ happend =>
    obtain ⟨-, rfl, rfl⟩ := Scene.closed_of_append happend
    rfl

theorem Desk.RemoveOutcome.eq_of_unset {r : Except Fault Atom × Scene ε}
    (h : Desk.RemoveOutcome (Scene.desk sink) d key s r)
    (hunset : (s.holdings.properties d.style).value? key = none) :
    let taken := (s.holdings.letGo key).takeEmpty d.table
    r = (.ok taken.1, { s with holdings := taken.2 }) := by
  cases h with
  | unset _ hempty =>
    obtain ⟨rfl, rfl⟩ := Prod.mk.inj hempty
    rfl
  | made hne => exact absurd hunset hne
  | gone hne => exact absurd hunset hne
  | refused hne => exact absurd hunset hne

/-- Whatever the sink has done to the declaration, something is taken into the hand. -/
theorem Desk.RemoveOutcome.exists_of_open {r : Except Fault Atom × Scene ε}
    (h : Desk.RemoveOutcome (Scene.desk sink) d key s r)
    (hne : (s.holdings.properties d.style).value? key ≠ none)
    (hopen : s.queue.closed = false) :
    let told := Scene.told sink (command d.target (s.holdings.heap.text key) "") s
    ∃ a h', r = (.ok a, { told with holdings := h' }) := by
  cases h with
  | unset hunset => exact absurd hunset hne
  | made _ happend hremove =>
    obtain ⟨-, rfl⟩ := Prod.mk.inj ((Scene.append_of_open hopen).symm.trans happend)
    obtain ⟨-, rfl⟩ := Prod.mk.inj hremove
    exact ⟨_, _, rfl⟩
  | gone _ happend hremove hempty =>
    obtain ⟨-, rfl⟩ := Prod.mk.inj ((Scene.append_of_open hopen).symm.trans happend)
    obtain ⟨-, rfl⟩ := Prod.mk.inj hremove
    obtain ⟨rfl, rfl⟩ := Prod.mk.inj hempty
    exact ⟨_, _, rfl⟩
  | refused _ happend =>
    exact absurd (congrArg Prod.fst ((Scene.append_of_open hopen).symm.trans happend)) (by simp)

theorem Desk.RemoveOutcome.eq_of_closed {r : Except Fault Atom × Scene ε}
    (h : Desk.RemoveOutcome (Scene.desk sink) d key s r)
    (hne : (s.holdings.properties d.style).value? key ≠ none)
    (hclosed : s.queue.closed = true) :
    r = (.error (.contextDisposed s.queue.context),
      { s with
        holdings := s.holdings.letGo key
        logs := s.logs ++ [.commandRefused s.queue.context .setStyle d.target] }) := by
  cases h with
  | unset hunset => exact absurd hunset hne
  | made _ happend =>
    exact absurd ((Scene.open_of_append happend).symm.trans hclosed) Bool.false_ne_true
  | gone _ happend =>
    exact absurd ((Scene.open_of_append happend).symm.trans hclosed) Bool.false_ne_true
  | refused _ happend =>
    obtain ⟨-, rfl, rfl⟩ := Scene.closed_of_append happend
    rfl

end Outcomes

/-! ### Setting and removing -/

/-- Taking and letting go of atoms. -/
theorem SameSheets.apply {s h : Holdings} (hsame : SameSheets s h) (hs : h.Sound) (op : Op)
    (hleaves : ∀ i, Leaves ⟨i, 0, d.table, d.names⟩ op) : SameSheets s (op.apply h) := by
  intro i
  have hproperties := properties_apply (s := h) (hleaves i)
  obtain ⟨hold, hsheet⟩ := hsame i
  exact ⟨hproperties.trans hold, (Kept.sheet_apply hs hproperties).trans hsheet⟩

/-- The atom of a name is in the hand, and all declarations are as they were. -/
structure Named (d : Declaration) (k : String) (s h : Holdings) (key : Atom) : Prop where
  matched : Matched d.names d.table h
  is_key : h.heap.Is key d.table k
  mem_hand : key ∈ h.hand
  same : SameSheets s h
  own : ownSheet d h = ownSheet d s

theorem named_resolve {s : Holdings} (h : Matched d.names d.table s)
    (hlt : d.names < s.caches.size) (name : String) :
    Named d (Text.camelCase name) s (s.resolve d.names d.table name).2
      (s.resolve d.names d.table name).1 where
  matched := h.apply (.resolve d.names d.table name) hlt (fun _ => rfl) trivial
  is_key := resolve_is_of_names h.names name
  mem_hand := List.mem_cons_self
  same := SameSheets.apply (fun _ => ⟨rfl, rfl⟩) h.sound (.resolve d.names d.table name)
    fun _ _ => rfl
  own := ownSheet_apply h.sound (.resolve d.names d.table name) (properties_apply fun _ => rfl)

namespace Named

variable {s h : Holdings} {key v : Atom} {k value : String}

theorem take (hn : Named d k s h key) (value : String) :
    Named d k s (h.take d.table value).2 key where
  matched := hn.matched.apply (.take d.table value) trivial trivial trivial
  is_key := (Op.take d.table value).extends_apply h _ _ _ hn.is_key
  mem_hand := List.mem_cons_of_mem _ hn.mem_hand
  same := hn.same.apply (d := d) hn.matched.sound (.take d.table value) fun _ => trivial
  own := (ownSheet_apply hn.matched.sound (.take d.table value)
    (properties_apply (d := d) trivial)).trans hn.own

theorem live (hn : Named d k s h key) : h.heap.holders key ≠ 0 :=
  hn.matched.sound.live (Holdings.mem_held_of_hand hn.mem_hand)

theorem sound_letGo (hn : Named d k s h key) : (h.letGo key).Sound :=
  hn.matched.sound.letGo hn.mem_hand

theorem same_letGo (hn : Named d k s h key) : SameSheets s (h.letGo key) :=
  hn.same.apply (d := d) hn.matched.sound (.letGo key) fun _ => trivial

/-- The own part of the declaration says what is found by the name. -/
theorem value?_eq_none_iff (hn : Named d k s h key) :
    (h.properties d.style).value? key = none ↔ (ownSheet d s).lookup k = none := by
  rw [← hn.own, hn.matched.lookup_eq hn.is_key hn.live, Option.map_eq_none_iff]

theorem value?_eq_some_iff (hn : Named d k s h key) (hv : h.heap.Is v d.table value)
    (hmem : v ∈ h.hand) :
    (h.properties d.style).value? key = some v ↔ (ownSheet d s).lookup k = some value := by
  rw [← hn.own]
  exact hn.matched.value?_eq_some_iff hn.is_key hn.live hv
    (hn.matched.sound.live (Holdings.mem_held_of_hand hmem))

end Named

/-- Setting needs a command if the value is not the one that is there. -/
theorem Named.tells_set {h : Holdings} {key v : Atom} {k value : String}
    (hn : Named d k s.holdings h key) (hv : h.heap.Is v d.table value) (hmem : v ∈ h.hand)
    {edit : (ContextId → Scene ε → Scene ε) → Except Fault Unit × Scene ε}
    (houtcome : ∀ sink,
      Desk.SetOutcome (Scene.desk sink) d key v { s with holdings := h } (edit sink)) :
    Tells (command d.target k value) ((ownSheet d s.holdings).lookup k ≠ some value) s edit := by
  have hset := hn.value?_eq_some_iff hv hmem
  have hsame : SameSheets s.holdings ((h.letGo key).letGo v) :=
    hn.same_letGo.apply (d := d) hn.sound_letGo (.letGo v) fun _ => trivial
  refine .of_cases (fun hidle => ?_) (fun hneeded hopen => ?_) fun hneeded hclosed => ?_
  · have heq := fun sink => (houtcome sink).eq_of_same (hset.mpr (not_not.mp hidle))
    refine ⟨⟨_, _, fun sink => congrArg Prod.snd (heq sink), hsame⟩, fun sink => ?_⟩
    exact ⟨(), congrArg Prod.fst (heq sink)⟩
  · have heq := fun sink => (houtcome sink).eq_of_open (mt hset.mp hneeded) hopen
    simp only [hn.is_key.text_eq, hv.text_eq] at heq
    exact ⟨fun sink => ⟨(), congrArg Prod.fst (heq sink)⟩,
      fun sink => ⟨h, _, congrArg Prod.snd (heq sink)⟩⟩
  · have heq := fun sink => (houtcome sink).eq_of_closed (mt hset.mp hneeded) hclosed
    refine ⟨⟨_, _, fun sink => congrArg Prod.snd (heq sink), hsame⟩, fun sink => ?_⟩
    exact congrArg Prod.fst (heq sink)

/-- Removing needs a command if something is there. -/
theorem Named.tells_remove {h : Holdings} {key : Atom} {k : String}
    (hn : Named d k s.holdings h key)
    {edit : (ContextId → Scene ε → Scene ε) → Except Fault Atom × Scene ε}
    (houtcome : ∀ sink,
      Desk.RemoveOutcome (Scene.desk sink) d key { s with holdings := h } (edit sink)) :
    Tells (command d.target k "") ((ownSheet d s.holdings).lookup k ≠ none) s edit := by
  have hset := hn.value?_eq_none_iff
  have hsame : SameSheets s.holdings ((h.letGo key).takeEmpty d.table).2 :=
    hn.same_letGo.apply (d := d) hn.sound_letGo (.takeEmpty d.table) fun _ => trivial
  refine .of_cases (fun hidle => ?_) (fun hneeded hopen => ?_) fun hneeded hclosed => ?_
  · have heq := fun sink => (houtcome sink).eq_of_unset (hset.mpr (not_not.mp hidle))
    refine ⟨⟨_, _, fun sink => congrArg Prod.snd (heq sink), hsame⟩, fun sink => ?_⟩
    exact ⟨_, congrArg Prod.fst (heq sink)⟩
  · have heq := fun sink => (houtcome sink).exists_of_open (mt hset.mp hneeded) hopen
    simp only [hn.is_key.text_eq] at heq
    refine ⟨fun sink => ?_, fun sink => ?_⟩
    · obtain ⟨a, h', heq⟩ := heq sink
      exact ⟨a, congrArg Prod.fst heq⟩
    · obtain ⟨a, h', heq⟩ := heq sink
      exact ⟨h, h', congrArg Prod.snd heq⟩
  · have heq := fun sink => (houtcome sink).eq_of_closed (mt hset.mp hneeded) hclosed
    refine ⟨⟨_, _, fun sink => congrArg Prod.snd (heq sink), hn.same_letGo⟩, fun sink => ?_⟩
    exact congrArg Prod.fst (heq sink)

/-- What is not there is removed as the empty text. -/
theorem Named.removed_empty {h : Holdings} {key : Atom} {k : String}
    (hn : Named d k s.holdings h key) (hunset : (ownSheet d s.holdings).lookup k = none)
    {r : Except Fault Atom × Scene ε}
    (houtcome : Desk.RemoveOutcome (Scene.desk sink) d key { s with holdings := h } r) :
    ∃ a, r.1 = .ok a ∧ r.2.holdings.heap.text a = "" := by
  rw [houtcome.eq_of_unset (hn.value?_eq_none_iff.mpr hunset)]
  exact ⟨_, rfl, (hn.sound_letGo.takeEmpty_is d.table).1.text_eq⟩

section Tells

variable (h : Matched d.names d.table s.holdings) (hlt : d.names < s.holdings.caches.size)
include h hlt

theorem set_tells (name value : String) :
    Tells (command d.target (Text.camelCase name) value)
      ((ownSheet d s.holdings).lookup (Text.camelCase name) ≠ some value) s
      fun sink => (Scene.desk sink).set d name value s := by
  have hn := (named_resolve h hlt name).take value
  have hv := Atom.Heap.intern_is (s.holdings.resolve d.names d.table name).2.heap d.table value
  refine hn.tells_set hv List.mem_cons_self fun sink => ?_
  obtain ⟨key, s₁, v, s₂, hkey, hvalue, houtcome⟩ := (Scene.desk sink).set_outcome d name value s
  obtain ⟨rfl, rfl⟩ := Prod.mk.inj hkey
  obtain ⟨rfl, rfl⟩ := Prod.mk.inj hvalue
  exact houtcome

omit h hlt in
theorem remove_outcome_at (sink : ContextId → Scene ε → Scene ε) (name : String) :
    Desk.RemoveOutcome (Scene.desk sink) d (s.holdings.resolve d.names d.table name).1
      { s with holdings := (s.holdings.resolve d.names d.table name).2 }
      ((Scene.desk sink).remove d name s) := by
  obtain ⟨key, s₁, hkey, houtcome⟩ := (Scene.desk sink).remove_outcome d name s
  obtain ⟨rfl, rfl⟩ := Prod.mk.inj hkey
  exact houtcome

theorem remove_tells (name : String) :
    Tells (command d.target (Text.camelCase name) "")
      ((ownSheet d s.holdings).lookup (Text.camelCase name) ≠ none) s
      fun sink => (Scene.desk sink).remove d name s :=
  (named_resolve h hlt name).tells_remove fun sink => remove_outcome_at sink name

end Tells

/-- **Commands of edits.**  Whatever has happened before, and whatever the sink may do, let `k` be
the camel-case form of a name and `stored` the text that the own part of a declaration has for it;
this is what the whole declaration has, if none of its properties of that name was copied from
another table.  Setting a value needs a command exactly if `stored` is another one or nothing, and
removing exactly if `stored` is something.  An edit appends the command that sets `k` exactly if it
needs it and the queue is open; it is refused exactly if it needs it and the queue is closed; and
otherwise, on a closed queue too, it succeeds without a command, where removing gives the empty text.
An edit that is refused changes neither a declaration nor the queue, and the sink is not told. -/
theorem edits_tell (d : Declaration) (s : Scene ε) (run : Course d.names d.table {} s.holdings)
    (hlt : d.names < s.holdings.caches.size) (name value : String) :
    let k := Text.camelCase name
    let stored := (ownSheet d s.holdings).lookup k
    ((∀ p ∈ s.holdings.properties d.style, s.holdings.heap.text p.1 = k →
        s.holdings.heap.table? p.1 = some d.table) → (sheet s.holdings d.style).lookup k = stored) ∧
      Tells (command d.target k value) (stored ≠ some value) s
        (fun sink => (Scene.desk sink).set d name value s) ∧
      Tells (command d.target k "") (stored ≠ none) s
        (fun sink => (Scene.desk sink).remove d name s) ∧
      (stored = none → ∀ sink, ∃ a, ((Scene.desk sink).remove d name s).1 = .ok a ∧
        ((Scene.desk sink).remove d name s).2.holdings.heap.text a = "") := by
  have hmatched := run.matched
  refine ⟨fun hown => (lookup_sheet hown).symm, set_tells hmatched hlt name value,
    remove_tells hmatched hlt name, fun hunset sink => ?_⟩
  exact (named_resolve hmatched hlt name).removed_empty hunset (remove_outcome_at sink name)

/-! ### A sample -/

theorem quiet_append {u u' : Scene ε}
    (happend : (Scene.outlet Scene.quiet).append c u = (.ok (), u')) :
    u'.holdings = u.holdings := by
  have hopen := Scene.open_of_append happend
  rw [Scene.append_of_open hopen] at happend
  obtain ⟨-, rfl⟩ := Prod.mk.inj happend
  rw [Scene.told]
  split <;> rfl

theorem quiet_fair : (Scene.desk (Scene.quiet : ContextId → Scene ε → Scene ε)).Fair where
  holdings_setHoldings _ _ := rfl
  appended _ u u' happend := by
    show Holdings.Whole u.holdings u'.holdings
    rw [quiet_append happend]
    exact .refl u.holdings
  refused _ _ _ _ happend := (append_refused happend).1

theorem quiet_pursues (names : CacheId) (t : TableId) :
    (Scene.desk (Scene.quiet : ContextId → Scene ε → Scene ε)).Pursues names t := by
  intro command u u' happend
  show Course names t u.holdings u'.holdings
  rw [quiet_append happend]

/-- By its text the copied colour is red; it is not a part of the own ones, and setting it to red
sends a command, while removing it sends none. -/
theorem copiedScene_eval :
    (0 < copiedScene.holdings.caches.size ∧ copiedScene.queue.closed = false ∧
        (ownSheet (firstContext.declaration 0) copiedScene.holdings).lookup
          (Text.camelCase "color") = none) ∧
      (sheet copiedScene.holdings 0).lookup "color" = some "red" ∧
      copiedScene.queue.pending = #[] ∧
      ((Scene.desk Scene.quiet).set (firstContext.declaration 0) "color" "red"
        copiedScene).2.queue.pending = #[command 1 "color" "red"] ∧
      ((Scene.desk Scene.quiet).remove (firstContext.declaration 0) "color"
        copiedScene).2.queue.pending = #[] := by
  decide +kernel

theorem Course.call_set {F : Family} {i : StyleId} {names : CacheId} {t : TableId}
    {s : Scene (List Event × ε)} (hresolves : F.names = names → F.table = t)
    (hnames : F.names < s.holdings.caches.size)
    (hnamed : Holdings.Remembers F.names F.table s.holdings) (hstyle : i < s.holdings.styles.size)
    (name value : String) :
    Course names t s.holdings (s.call F Scene.quiet (.set i name value)).holdings :=
  .set (d := F.declaration i) quiet_fair hresolves hnames (quiet_pursues names t) hnamed hstyle
    name value

theorem Course.make_copy {F : Family} {i source : StyleId} {names : CacheId} {t : TableId}
    {s : Scene ε} (hne : i ≠ source) (hi : i < s.holdings.styles.size) :
    Course names t s.holdings (s.make F Scene.quiet (.copy i source)).2.holdings :=
  .copyStyle hne hi

theorem copiedScene_course : Course 0 0 {} copiedScene.holdings := by
  obtain ⟨⟨hstyles, hcaches⟩, ⟨-, -, -, hlt⟩, -⟩ := colourScene_eval
  have hblank : ∀ names t, Course names t {} blankScene.holdings := fun names t =>
    .of_ops (by simp [Op.Ready, Leaves])
  have hpainted : Course 0 0 blankScene.holdings paintedScene.holdings :=
    Course.call_set (F := secondContext) (fun h => absurd h Nat.one_ne_zero) hcaches
      (hblank 1 1).matched.toRemembers hstyles "color" "red"
  have hcopied : Course 0 0 colourScene.holdings copiedScene.holdings :=
    Course.make_copy (F := firstContext) (by decide) hlt
  rw [colourScene_holdings] at hcopied
  exact ((hblank 0 0).trans hpainted).trans hcopied

theorem copiedScene_edits_tell :
    Appends (command 1 "color" "red") copiedScene
        (fun sink => (Scene.desk sink).set (firstContext.declaration 0) "color" "red" copiedScene) ∧
      Silent copiedScene
        (fun sink => (Scene.desk sink).remove (firstContext.declaration 0) "color" copiedScene) := by
  obtain ⟨⟨hlt, hopen, hstored⟩, -⟩ := copiedScene_eval
  obtain ⟨-, hset, hremove, -⟩ := edits_tell (firstContext.declaration 0) copiedScene
    copiedScene_course hlt "color" "red"
  have hname : Text.camelCase "color" = "color" := by decide
  rw [hstored, hname] at hset
  rw [hstored] at hremove
  exact ⟨hset.appends.mpr ⟨by decide, hopen⟩, (hremove.silent.mpr (by decide)).1⟩

/-- A command is sent for the colour that there is already, and none when it is removed. -/
theorem copied_colour_signalled :
    (sheet copiedScene.holdings 0).lookup "color" = some "red" ∧
      ((Scene.desk Scene.quiet).set (firstContext.declaration 0) "color" "red"
        copiedScene).2.queue.pending ≠ copiedScene.queue.pending ∧
      ((Scene.desk Scene.quiet).remove (firstContext.declaration 0) "color"
        copiedScene).2.queue.pending ≠ copiedScene.queue.pending.push (command 1 "color" "") := by
  obtain ⟨-, hcolour, hpending, hset, hremove⟩ := copiedScene_eval
  rw [hset, hremove, hpending]
  exact ⟨hcolour, by simp, by simp⟩

end ScriptHost.Style

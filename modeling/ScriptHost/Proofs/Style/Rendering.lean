/-
What the renderer makes of the commands of a declaration.

A renderer knows a style only from the commands that it has drained and will drain.  `replayed` is
what it makes of them: the last command for a name counts, and an empty value unsets it.  A
`Scene` is a context in which one declaration is edited while others work: they append commands of
other targets and kinds, drain and close the queue, and intern and release atoms, also in the midst
of an edit, when the sink is told of its command.

* `Others.spares` — what others may do touches neither the declaration nor what is replayed;
* `Faithful.set`, `Faithful.remove` — an edit changes both in the same way, or neither;
* `Run.replayed_eq_get` — after any run, replaying gives what reading gives.

Design notes: an edit holds the atoms of its name and value while the sink works (`kept`), so they
are still the atoms of these texts when the change is made.  That the sink does not edit this
declaration is not a restriction: whoever edits it has it to himself until the edit returns.
-/
import ScriptHost.Proofs.Command.History
import ScriptHost.Proofs.Style.Edit
import ScriptHost.Proofs.Style.Keyed
import Mathlib.Logic.Relation

namespace ScriptHost.Style

open Holdings (Op)

/-! ### Replaying -/

/-- The command sets a property of the target. -/
def Styles (target : Int) (c : Command) : Prop := c.kind = .setStyle ∧ c.target = target

instance (target : Int) (c : Command) : Decidable (Styles target c) :=
  inferInstanceAs (Decidable (_ ∧ _))

/-- The text of a payload. -/
def payloadText (p : Option Text.Units) : String := (p.map Text.Units.toText).getD ""

/-- What a renderer knows of the style of a target: values by names. -/
abbrev View := String → Option String

/-- One more command: its value, by its name; an empty value unsets it. -/
def View.receive (target : Int) (view : View) (c : Command) : View :=
  if Styles target c then
    fun x =>
      if x = payloadText c.first then
        if payloadText c.second = "" then none else some (payloadText c.second)
      else view x
  else view

/-- What a renderer knows after some commands. -/
def replayed (target : Int) (cs : List Command) : View :=
  cs.foldl (View.receive target) fun _ => none

theorem replayed_append (target : Int) (cs : List Command) (c : Command) :
    replayed target (cs ++ [c]) = (replayed target cs).receive target c := by
  rw [replayed, List.foldl_append]
  rfl

theorem receive_of_not {target : Int} {c : Command} (hc : ¬ Styles target c) (view : View) :
    view.receive target c = view := if_neg hc

theorem receive_command (target : Int) (name value : String) (view : View) (x : String) :
    (view.receive target (command target name value) x).getD "" =
      if x = name then value else (view x).getD "" := by
  have hname : payloadText (command target name value).first = name := by
    show (Text.Units.toText (Text.Units.ofString name)) = name
    rw [Text.Units.toText_ofString]
  have hvalue : payloadText (command target name value).second = value := by
    show (Text.Units.toText (Text.Units.ofString value)) = value
    rw [Text.Units.toText_ofString]
  rw [View.receive, if_pos ⟨rfl, rfl⟩, hname, hvalue]
  by_cases hx : x = name
  · rw [if_pos hx, if_pos hx]
    by_cases hv : value = ""
    · rw [if_pos hv, hv]
      rfl
    · rw [if_neg hv]
      rfl
  · rw [if_neg hx, if_neg hx]

/-! ### Scenes -/

/-- A context in which a declaration is edited, with a renderer that has drained some commands,
and anything else that there is. -/
structure Scene (ε : Type) where
  holdings : Holdings
  queue : Queue
  received : List Command
  logs : List Log
  rest : ε

namespace Scene

variable {ε : Type}

/-- All commands of the scene, the drained ones first. -/
def stream (s : Scene ε) : List Command := s.received ++ s.queue.pending.toList

/-- The queue of a scene, with a sink that may do anything. -/
def outlet (sink : ContextId → Scene ε → Scene ε) : Outlet (Scene ε) where
  queue := queue
  setQueue queue s := { s with queue }
  signal := sink
  log l s := { s with logs := s.logs ++ [l] }

/-- The desk at which the declaration is edited. -/
def desk (sink : ContextId → Scene ε → Scene ε) : Desk (Scene ε) where
  holdings := holdings
  setHoldings holdings s := { s with holdings }
  append := (outlet sink).append

/-- A sink that does nothing. -/
def quiet : ContextId → Scene ε → Scene ε := fun _ s => s

/-- The renderer drains the queue. -/
def drain (s : Scene ε) : Scene ε :=
  let (batch, s) := (outlet quiet).drain s
  { s with received := s.received ++ batch.toList }

/-- Performs an operation on the holdings. -/
def perform (op : Op) (s : Scene ε) : Scene ε := { s with holdings := op.apply s.holdings }

/-- A command that the queue takes comes last. -/
theorem stream_append_of_open {s : Scene ε} (hopen : s.queue.closed = false) (c : Command) :
    ((outlet quiet).append c s).2.stream = s.stream ++ [c] ∧
      ((outlet quiet).append c s).2.holdings = s.holdings := by
  have happend : ((outlet quiet).append c s).2 =
      { s with queue := { s.queue with pending := s.queue.pending.push c },
               logs := s.logs ++ [.commandAppended s.queue.context c.kind c.target] } :=
    Outlet.silent_append_of_open (w := outlet quiet) hopen c
  rw [happend]
  exact ⟨by simp [stream], rfl⟩

theorem append_of_closed {s : Scene ε} (sink : ContextId → Scene ε → Scene ε)
    (hclosed : s.queue.closed = true) (c : Command) :
    (outlet sink).append c s = (.error (.contextDisposed s.queue.context),
      { s with logs := s.logs ++ [.commandRefused s.queue.context c.kind c.target] }) :=
  Outlet.append_of_closed (outlet sink) hclosed

/-- Only an open queue takes a command. -/
theorem open_of_append {sink : ContextId → Scene ε → Scene ε} {s t : Scene ε} {c : Command}
    (h : (outlet sink).append c s = (.ok (), t)) : s.queue.closed = false := by
  cases hclosed : s.queue.closed with
  | false => rfl
  | true =>
    rw [append_of_closed sink hclosed] at h
    exact absurd (congrArg Prod.fst h) (by simp)

/-- Only a closed queue refuses one, and then nothing but the log changes. -/
theorem closed_of_append {sink : ContextId → Scene ε → Scene ε} {s t : Scene ε} {c : Command}
    {fault : Fault} (h : (outlet sink).append c s = (.error fault, t)) :
    s.queue.closed = true ∧ fault = .contextDisposed s.queue.context ∧
      t = { s with logs := s.logs ++ [.commandRefused s.queue.context c.kind c.target] } := by
  cases hclosed : s.queue.closed with
  | true =>
    rw [append_of_closed sink hclosed] at h
    obtain ⟨hfault, rfl⟩ := Prod.mk.inj h
    exact ⟨rfl, (Except.error.inj hfault).symm, rfl⟩
  | false =>
    have hok := (outlet sink).append_of_open (c := c) (s := s) hclosed
    rw [h] at hok
    exact absurd hok (by simp)

theorem stream_drain (s : Scene ε) : s.drain.stream = s.stream ∧ s.drain.holdings = s.holdings := by
  have hdrain : s.drain.received = s.received ++ s.queue.pending.toList ∧
      s.drain.queue.pending = #[] ∧ s.drain.holdings = s.holdings := by
    rw [drain, Outlet.drain]
    dsimp only [outlet, Queue.drain]
    split <;> exact ⟨rfl, rfl, rfl⟩
  rw [stream, hdrain.1, hdrain.2.1, hdrain.2.2]
  exact ⟨by simp [stream], rfl⟩

end Scene

/-! ### What others do -/

/-- What others may do while atoms are kept in the hand.  An append by others is taken up to the
signal; what their sink does follows as steps of its own. -/
inductive Other {ε : Type} (d : Declaration) (kept : List Atom) : Scene ε → Scene ε → Prop
  | append (c : Command) (hc : ¬ Styles d.target c) (s : Scene ε) :
      Other d kept s ((Scene.outlet Scene.quiet).append c s).2
  | drain (s : Scene ε) : Other d kept s s.drain
  | setBatching (on : Bool) (s : Scene ε) :
      Other d kept s ((Scene.outlet Scene.quiet).setBatching on s)
  | close (s : Scene ε) : Other d kept s ((Scene.outlet Scene.quiet).close s)
  | perform (op : Op) (s : Scene ε) (hready : op.Ready s.holdings) (hleaves : Leaves d op)
      (hkept : ∀ a, kept.count a ≤ (op.apply s.holdings).hand.count a) :
      Other d kept s (s.perform op)
  | log (l : Log) (s : Scene ε) : Other d kept s { s with logs := s.logs ++ [l] }
  | rest (r : ε) (s : Scene ε) : Other d kept s { s with rest := r }

/-- Any number of things that others do. -/
abbrev Others {ε : Type} (d : Declaration) (kept : List Atom) : Scene ε → Scene ε → Prop :=
  Relation.ReflTransGen (Other d kept)

/-- A declaration, the atoms that are kept in the hand and the texts of all atoms are spared. -/
structure Spared {ε : Type} (d : Declaration) (kept : List Atom) (s t : Scene ε) : Prop where
  keyed : Keyed d s.holdings → Keyed d t.holdings
  properties : t.holdings.properties d.style = s.holdings.properties d.style
  shown : Keyed d s.holdings → ∀ x, shown d t.holdings x = shown d s.holdings x
  is_atom : ∀ a t' x, s.holdings.heap.Is a t' x → t.holdings.heap.Is a t' x
  hand : (∀ a, kept.count a ≤ s.holdings.hand.count a) →
    ∀ a, kept.count a ≤ t.holdings.hand.count a

section Others

variable {ε : Type} {d : Declaration} {kept : List Atom} {s t u : Scene ε}

theorem Spared.of_eq (h : t.holdings = s.holdings) : Spared d kept s t := by
  refine ⟨?_, ?_, ?_, ?_, ?_⟩
  · exact fun hk => h.symm ▸ hk
  · rw [h]
  · exact fun _ x => by rw [h]
  · exact fun a t' x hi => h.symm ▸ hi
  · exact fun hh => h.symm ▸ hh

theorem Spared.trans (h : Spared d kept s t) (h' : Spared d kept t u) : Spared d kept s u where
  keyed hk := h'.keyed (h.keyed hk)
  properties := h'.properties.trans h.properties
  shown hk x := (h'.shown (h.keyed hk) x).trans (h.shown hk x)
  is_atom a t' x hi := h'.is_atom a t' x (h.is_atom a t' x hi)
  hand hh := h'.hand (h.hand hh)

theorem Spared.perform {op : Op} (hready : op.Ready s.holdings) (hleaves : Leaves d op)
    (hkept : ∀ a, kept.count a ≤ (op.apply s.holdings).hand.count a) :
    Spared d kept s (s.perform op) where
  keyed hk := hk.apply op hready hleaves
  properties := properties_apply hleaves
  shown hk := hk.shown_apply op hleaves
  is_atom := op.extends_apply s.holdings
  hand _ := hkept

theorem Other.spares (h : Other d kept s t) :
    Spared d kept s t ∧ replayed d.target t.stream = replayed d.target s.stream := by
  cases h with
  | append c hc =>
    -- refused or not, a command of another target or kind is nothing to replay
    cases hclosed : s.queue.closed with
    | true =>
      rw [Scene.append_of_closed Scene.quiet hclosed]
      exact ⟨.of_eq rfl, rfl⟩
    | false =>
      obtain ⟨hstream, hholdings⟩ := Scene.stream_append_of_open hclosed c
      refine ⟨.of_eq hholdings, ?_⟩
      rw [hstream, replayed_append, receive_of_not hc]
  | drain =>
    obtain ⟨hstream, hholdings⟩ := Scene.stream_drain s
    exact ⟨.of_eq hholdings, by rw [hstream]⟩
  | setBatching on => exact ⟨.of_eq rfl, rfl⟩
  | close => exact ⟨.of_eq rfl, rfl⟩
  | perform op _ hready hleaves hkept => exact ⟨.perform hready hleaves hkept, rfl⟩
  | log l => exact ⟨.of_eq rfl, rfl⟩
  | rest r => exact ⟨.of_eq rfl, rfl⟩

theorem Others.spares (h : Others d kept s t) :
    Spared d kept s t ∧ replayed d.target t.stream = replayed d.target s.stream := by
  induction h with
  | refl => exact ⟨.of_eq rfl, rfl⟩
  | tail _ hstep ih =>
    obtain ⟨hspared, hreplayed⟩ := hstep.spares
    exact ⟨ih.1.trans hspared, hreplayed.trans ih.2⟩

/-- A sink that may be told of a command of the declaration: in its course others may do anything,
but not with what is in the hand. -/
def Discreet (d : Declaration) (sink : ContextId → Scene ε → Scene ε) : Prop :=
  ∀ context s, Others d s.holdings.hand s (sink context s)

variable {sink : ContextId → Scene ε → Scene ε}

/-- After an append, sink included, the command has been added to what is replayed. -/
theorem append_spares (hsink : Discreet d sink) {c : Command}
    (happend : (Scene.outlet sink).append c s = (.ok (), t)) :
    Spared d s.holdings.hand s t ∧
      replayed d.target t.stream = (replayed d.target s.stream).receive d.target c := by
  have hopen := Scene.open_of_append happend
  obtain ⟨hstream, hholdings⟩ := Scene.stream_append_of_open hopen c
  have hquiet : Spared d s.holdings.hand s ((Scene.outlet Scene.quiet).append c s).2 :=
    .of_eq hholdings
  have hreceive : replayed d.target ((Scene.outlet Scene.quiet).append c s).2.stream =
      (replayed d.target s.stream).receive d.target c := by
    rw [hstream, replayed_append]
  have ht : ((Scene.outlet sink).append c s).2 = t := congrArg Prod.snd happend
  rcases Outlet.append_snd (Scene.outlet sink) c s with h | h
  · rw [← ht, h]
    exact ⟨hquiet, hreceive⟩
  · -- the sink was told when the command was already waiting
    rw [← ht, h]
    have htold := hsink s.queue.context ((Scene.outlet Scene.quiet).append c s).2
    rw [hholdings] at htold
    obtain ⟨hspared, hreplayed⟩ := htold.spares
    exact ⟨hquiet.trans hspared, hreplayed.trans hreceive⟩

/-- A refused command leaves everything but the log as it is. -/
theorem append_refused {c : Command} {fault : Fault}
    (happend : (Scene.outlet sink).append c s = (.error fault, t)) :
    t.holdings = s.holdings ∧ t.stream = s.stream := by
  obtain ⟨-, -, rfl⟩ := Scene.closed_of_append happend
  exact ⟨rfl, rfl⟩

end Others

/-! ### Edits -/

/-- Reading and replaying give the same. -/
structure Faithful {ε : Type} (d : Declaration) (s : Scene ε) : Prop where
  keyed : Keyed d s.holdings
  agrees : ∀ x, shown d s.holdings x = (replayed d.target s.stream x).getD ""

section Edits

variable {ε : Type} {d : Declaration} {s t : Scene ε}

theorem Faithful.of_spared {kept : List Atom} (hs : Faithful d s) (h : Spared d kept s t)
    (hreplayed : replayed d.target t.stream = replayed d.target s.stream) : Faithful d t where
  keyed := h.keyed hs.keyed
  agrees x := by rw [h.shown hs.keyed, hs.agrees, hreplayed]

/-- Whatever one does with one's own atoms is an operation that spares the declaration. -/
theorem Faithful.perform (op : Op) (hs : Faithful d s) (hready : op.Ready s.holdings)
    (hleaves : Leaves d op) : Faithful d (s.perform op) := by
  have hspared : Spared d [] s (s.perform op) := .perform hready hleaves fun _ => Nat.zero_le _
  exact hs.of_spared hspared rfl

/-- Letting go of two atoms of the hand. -/
theorem Faithful.letGo_letGo (hs : Faithful d s) {k v : Atom} (hk : k ∈ s.holdings.hand)
    (hv : v ∈ s.holdings.hand.erase k) :
    Faithful d ((s.perform (.letGo k)).perform (.letGo v)) :=
  (hs.perform (.letGo k) hk trivial).perform (.letGo v) hv trivial

variable {sink : ContextId → Scene ε → Scene ε}

/-- While two atoms are on top of the hand, both can be let go or given away. -/
theorem mem_of_kept {hand : List Atom} {k v : Atom} {rest : List Atom}
    (hcount : ∀ a, (v :: k :: rest).count a ≤ hand.count a) : k ∈ hand ∧ v ∈ hand.erase k := by
  have hk : k ∈ hand := by
    refine List.count_pos_iff.mp (Nat.lt_of_lt_of_le ?_ (hcount k))
    exact List.count_pos_iff.mpr (List.mem_cons_of_mem _ List.mem_cons_self)
  refine ⟨hk, List.count_pos_iff.mp ?_⟩
  have h₁ := hcount v
  have h₂ := count_erase_add hk v
  rw [count_cons_eq v (k :: rest), count_cons_eq k rest, List.count_singleton_self] at h₁
  omega

/-- With the atoms of name and value in the hand, every outcome of `set` is faithful. -/
theorem Faithful.of_setOutcome {key v : Atom} {rest : List Atom} {name value : String}
    {r : Except Fault Unit × Scene ε} (hs : Faithful d s) (hsink : Discreet d sink)
    (hk : s.holdings.heap.Is key d.table name) (hv : s.holdings.heap.Is v d.table value)
    (hhand : s.holdings.hand = v :: key :: rest)
    (h : Desk.SetOutcome (Scene.desk sink) d key v s r) : Faithful d r.2 := by
  have hcount : ∀ a, (v :: key :: rest).count a ≤ s.holdings.hand.count a :=
    fun a => Nat.le_of_eq (congrArg (List.count a) hhand.symm)
  obtain ⟨hkey, hvalue⟩ := mem_of_kept hcount
  cases h with
  | same => exact hs.letGo_letGo hkey hvalue
  | @refused s₃ _ _ happend =>
    obtain ⟨hholdings, hstream⟩ := append_refused happend
    have hspared : Spared d [] s s₃ := .of_eq hholdings
    have hs₃ : Faithful d s₃ := hs.of_spared hspared (by rw [hstream])
    exact hs₃.letGo_letGo (hholdings ▸ hkey) (hholdings ▸ hvalue)
  | @made s₃ _ happend =>
    obtain ⟨hspared, hreplayed⟩ := append_spares hsink happend
    -- the hand still holds both atoms, so they are still the atoms of these texts
    have hcount₃ : ∀ a, (v :: key :: rest).count a ≤ s₃.holdings.hand.count a :=
      hhand ▸ hspared.hand fun _ => Nat.le_refl _
    obtain ⟨hkey₃, hvalue₃⟩ := mem_of_kept hcount₃
    have hk₃ := hspared.is_atom _ _ _ hk
    have hkeyed := hspared.keyed hs.keyed
    refine ⟨hkeyed.assign ⟨_, hk₃⟩ hkey₃ hvalue₃, fun x => ?_⟩
    show shown d (s₃.holdings.assign d.style key v) x = (replayed d.target s₃.stream x).getD ""
    rw [hkeyed.shown_assign hk₃ (hspared.is_atom _ _ _ hv) hkey₃ hvalue₃, hreplayed,
      receive_command, hspared.shown hs.keyed, hs.agrees]
    show _ = if x = s.holdings.heap.text key then s.holdings.heap.text v else _
    rw [hk.text_eq, hv.text_eq]

/-- Setting a property changes the declaration and what is replayed alike. -/
theorem Faithful.set (hs : Faithful d s) (hsink : Discreet d sink) (name value : String) :
    Faithful d ((Scene.desk sink).set d name value s).2 := by
  obtain ⟨key, s₁, v, s₂, hkey, hvalue, houtcome⟩ :=
    (Scene.desk sink).set_outcome d name value s
  obtain ⟨rfl, rfl⟩ := Prod.mk.inj hkey
  obtain ⟨rfl, rfl⟩ := Prod.mk.inj hvalue
  -- up to the append an edit performs two operations of its own
  have hs₁ : Faithful d (s.perform (.resolve d.names d.table name)) :=
    hs.perform _ hs.keyed.names_lt fun _ => rfl
  have hs₂ : Faithful d ((s.perform (.resolve d.names d.table name)).perform
      (.take d.table value)) := hs₁.perform (.take d.table value) trivial trivial
  have hk := (Op.take d.table value).extends_apply _ _ _ _ (hs.keyed.resolve_is name)
  have hv := Atom.Heap.intern_is (s.perform (.resolve d.names d.table name)).holdings.heap
    d.table value
  exact hs₂.of_setOutcome hsink hk hv rfl houtcome

/-- After the command that removes a property, and whatever followed from it, the property is
still there to be removed. -/
theorem Faithful.removing {key : Atom} {name value : String} (hs : Faithful d s)
    (hsink : Discreet d sink) (hk : s.holdings.heap.Is key d.table name)
    (hkey : key ∈ s.holdings.hand) (hset : (s.holdings.properties d.style).value? key ≠ none)
    (happend : (Scene.outlet sink).append
      (command d.target (s.holdings.heap.text key) value) s = (.ok (), t)) :
    ∃ v, Keyed d (t.holdings.letGo key) ∧ (t.holdings.letGo key).heap.Is key d.table name ∧
      ((t.holdings.letGo key).properties d.style).value? key = some v ∧
      (∀ x, shown d (t.holdings.letGo key) x = shown d s.holdings x) ∧
      replayed d.target t.stream =
        (replayed d.target s.stream).receive d.target (command d.target name value) := by
  obtain ⟨hspared, hreplayed⟩ := append_spares hsink happend
  have hkeyed := hspared.keyed hs.keyed
  have hin : key ∈ t.holdings.hand := by
    refine List.count_pos_iff.mp (Nat.lt_of_lt_of_le ?_ (hspared.hand (fun _ => Nat.le_refl _) key))
    exact List.count_pos_iff.mpr hkey
  obtain ⟨v, hv⟩ := Option.ne_none_iff_exists'.mp hset
  refine ⟨v, hkeyed.apply (.letGo key) hin trivial, ?_, ?_, fun x => ?_, ?_⟩
  · exact (Op.letGo key).extends_apply _ _ _ _ (hspared.is_atom _ _ _ hk)
  · show (t.holdings.properties d.style).value? key = some v
    rw [hspared.properties, hv]
  · exact (hkeyed.shown_apply (.letGo key) trivial x).trans (hspared.shown hs.keyed x)
  · rw [hreplayed, hk.text_eq]

/-- With the atom of the name in the hand, every outcome of `remove` is faithful. -/
theorem Faithful.of_removeOutcome {key : Atom} {rest : List Atom} {name : String}
    {r : Except Fault Atom × Scene ε} (hs : Faithful d s) (hsink : Discreet d sink)
    (hk : s.holdings.heap.Is key d.table name) (hhand : s.holdings.hand = key :: rest)
    (h : Desk.RemoveOutcome (Scene.desk sink) d key s r) : Faithful d r.2 := by
  have hkey : key ∈ s.holdings.hand := hhand ▸ List.mem_cons_self
  cases h with
  | @unset value s' _ hempty =>
    obtain ⟨-, rfl⟩ := Prod.mk.inj hempty
    have hs' : Faithful d (s.perform (.letGo key)) := hs.perform (.letGo key) hkey trivial
    exact hs'.perform (.takeEmpty d.table) trivial trivial
  | @refused s₃ _ _ happend =>
    obtain ⟨hholdings, hstream⟩ := append_refused happend
    have hspared : Spared d [] s s₃ := .of_eq hholdings
    have hs₃ : Faithful d s₃ := hs.of_spared hspared (by rw [hstream])
    exact hs₃.perform (.letGo key) (hholdings ▸ hkey : key ∈ s₃.holdings.hand) trivial
  | @made value s₃ s₄ hset happend hremove =>
    -- the command with the empty value unsets what is then removed
    obtain ⟨-, rfl⟩ := Prod.mk.inj hremove
    obtain ⟨v, hkeyed, hkey₃, hv, hshown, hreplayed⟩ := hs.removing hsink hk hkey hset happend
    refine ⟨hkeyed.unassign hv, fun x => ?_⟩
    show shown d ((s₃.holdings.letGo key).unassign d.style key).2 x =
      (replayed d.target s₃.stream x).getD ""
    rw [hkeyed.shown_unassign hkey₃ hv, hreplayed, receive_command, hshown, hs.agrees]
  | @gone value s₃ s₄ s₅ hset happend hremove _ =>
    -- others have left the property where it was, so it is still there
    obtain ⟨v, -, -, hv, -, -⟩ := hs.removing hsink hk hkey hset happend
    have hnone : ((s₃.holdings.letGo key).unassign d.style key).1 = none :=
      congrArg Prod.fst hremove
    rw [Holdings.unassign] at hnone
    dsimp only at hnone
    rw [hv] at hnone
    exact absurd hnone (Option.some_ne_none v)

/-- Removing a property changes the declaration and what is replayed alike. -/
theorem Faithful.remove (hs : Faithful d s) (hsink : Discreet d sink) (name : String) :
    Faithful d ((Scene.desk sink).remove d name s).2 := by
  obtain ⟨key, s₁, hkey, houtcome⟩ := (Scene.desk sink).remove_outcome d name s
  obtain ⟨rfl, rfl⟩ := Prod.mk.inj hkey
  have hs₁ : Faithful d (s.perform (.resolve d.names d.table name)) :=
    hs.perform _ hs.keyed.names_lt fun _ => rfl
  exact hs₁.of_removeOutcome hsink (hs.keyed.resolve_is name) rfl houtcome

/-- Reading a property changes nothing, and gives what the declaration shows. -/
theorem Faithful.get (hs : Faithful d s) (sink : ContextId → Scene ε → Scene ε) (name : String) :
    Faithful d ((Scene.desk sink).get d name s).2 ∧
      ((Scene.desk sink).get d name s).2.holdings.heap.text ((Scene.desk sink).get d name s).1 =
        shown d s.holdings (Text.camelCase name) := by
  have hs₁ : Faithful d (s.perform (.resolve d.names d.table name)) :=
    hs.perform _ hs.keyed.names_lt fun _ => rfl
  have hshown := hs.keyed.shown_apply (.resolve d.names d.table name) (fun _ => rfl)
    (Text.camelCase name)
  have hi := hs.keyed.resolve_is name
  have hkey : (s.holdings.resolve d.names d.table name).1 ∈
      (s.perform (.resolve d.names d.table name)).holdings.hand := List.mem_cons_self
  -- the atom of the name is let go when the one of the value has been taken
  obtain ⟨op, hready, hleaves, hop, hhand, t, his⟩ :=
    hs₁.keyed.takeValue hi (hs₁.keyed.sound.live (Holdings.mem_held_of_hand hkey))
  have hs₂ : Faithful d ((s.perform (.resolve d.names d.table name)).perform op) :=
    hs₁.perform op hready hleaves
  have hkey₂ := hhand ▸ List.mem_cons_of_mem _ hkey
  have hget : ((Scene.desk sink).get d name s).2 =
      ((s.perform (.resolve d.names d.table name)).perform op).perform
        (.letGo (s.holdings.resolve d.names d.table name).1) :=
    congrArg (fun h : Holdings =>
      { s with holdings := h.letGo (s.holdings.resolve d.names d.table name).1 }) hop
  rw [hget]
  refine ⟨hs₂.perform _ hkey₂ trivial, ?_⟩
  have htext := ((Op.letGo (s.holdings.resolve d.names d.table name).1).extends_apply
    _ _ _ _ his).text_eq
  exact htext.trans hshown

end Edits

/-! ### Runs -/

/-- One step of a run: an edit, a look at a property, or something that others do.  Each edit has
a sink of its own, so a sink is bound only while it is told of a command of this declaration. -/
inductive Step {ε : Type} (d : Declaration) : Scene ε → Scene ε → Prop
  | set {sink : ContextId → Scene ε → Scene ε} (hsink : Discreet d sink) (name value : String)
      (s : Scene ε) : Step d s ((Scene.desk sink).set d name value s).2
  | remove {sink : ContextId → Scene ε → Scene ε} (hsink : Discreet d sink) (name : String)
      (s : Scene ε) : Step d s ((Scene.desk sink).remove d name s).2
  | get (name : String) (s : Scene ε) : Step d s ((Scene.desk Scene.quiet).get d name s).2
  | other {s t : Scene ε} (h : Other d [] s t) : Step d s t

abbrev Run {ε : Type} (d : Declaration) : Scene ε → Scene ε → Prop :=
  Relation.ReflTransGen (Step d)

/-- The declaration has just been made, in a context with any history, and no command has set a
property of its target. -/
structure Fresh {ε : Type} (d : Declaration) (s : Scene ε) : Prop where
  history : Relation.ReflTransGen
    (fun h h' => ∃ op : Op, op.Ready h ∧ Leaves d op ∧ h' = op.apply h) {} s.holdings
  style_lt : d.style < s.holdings.styles.size
  names_lt : d.names < s.holdings.caches.size
  unstyled : ∀ c ∈ s.stream, ¬ Styles d.target c

section Runs

variable {ε : Type} {d : Declaration} {s t : Scene ε}

theorem replayed_of_unstyled {target : Int} {cs : List Command}
    (h : ∀ c ∈ cs, ¬ Styles target c) : replayed target cs = fun _ => none := by
  rw [replayed]
  generalize (fun _ => none : View) = view
  induction cs with
  | nil => rfl
  | cons c cs ih =>
    rw [List.forall_mem_cons] at h
    rw [List.foldl_cons, receive_of_not h.1, ih h.2]

theorem Fresh.faithful (h : Fresh d s) : Faithful d s := by
  have hall : s.holdings.Sound ∧ s.holdings.properties d.style = [] ∧
      ∀ p ∈ s.holdings.cache d.names, s.holdings.heap.Is p.2 d.table (Text.camelCase p.1) := by
    -- on the history of the holdings, in which nothing has touched the declaration
    have hhistory := h.history
    generalize s.holdings = holdings at hhistory
    induction hhistory with
    | refl => exact ⟨Holdings.sound_empty, by simp [Holdings.properties], by simp [Holdings.cache]⟩
    | @tail h₁ h₂ _ hop ih =>
      obtain ⟨op, hready, hleaves, rfl⟩ := hop
      obtain ⟨hsound, hproperties, hcache⟩ := ih
      exact ⟨op.sound_apply hsound hready, (properties_apply hleaves).trans hproperties,
        names_apply hleaves hcache⟩
  obtain ⟨hsound, hproperties, hcache⟩ := hall
  refine ⟨keyed_of_new hsound h.style_lt h.names_lt hcache hproperties, fun x => ?_⟩
  rw [replayed_of_unstyled h.unstyled, shown, hproperties]
  rfl

theorem Step.faithful (step : Step d s t) (hs : Faithful d s) : Faithful d t := by
  cases step with
  | set hsink name value => exact hs.set hsink name value
  | remove hsink name => exact hs.remove hsink name
  | get name => exact (hs.get Scene.quiet name).1
  | other h =>
    obtain ⟨hspared, hreplayed⟩ := h.spares
    exact hs.of_spared hspared hreplayed

theorem Run.faithful (run : Run d s t) (hs : Faithful d s) : Faithful d t := by
  induction run with
  | refl => exact hs
  | tail _ step ih => exact step.faithful ih

/-- **The renderer sees what scripts read.**  After any run from a fresh declaration on, a
renderer that replays all commands of its target, drained and pending, finds under the camel-case
form of any name the text that reading the property of that name gives; where it finds nothing,
that is the empty text. -/
theorem Run.replayed_eq_get (h : Fresh d s) (run : Run d s t)
    (sink : ContextId → Scene ε → Scene ε) (name : String) :
    let (value, t') := (Scene.desk sink).get d name t
    (replayed d.target (t.received ++ t.queue.pending.toList) (Text.camelCase name)).getD "" =
      t'.holdings.heap.text value := by
  have ht := run.faithful h.faithful
  exact (ht.agrees _).symm.trans (ht.get sink name).2.symm

end Runs

/-! ### A sample -/

/-- The first declaration of the first context. -/
def sample : Declaration := { style := 0, target := 42, table := 0, names := 0 }

def sampleScene : Scene Unit where
  holdings := ([.newTable [], .newCache, .newStyle] : List Op).foldl (fun h op => op.apply h) {}
  queue := { context := 7 }
  received := []
  logs := []
  rest := ()

/-- A sink that drains the queue as soon as it is told. -/
def draining : ContextId → Scene Unit → Scene Unit := fun _ s => s.drain

/-- A property is set and drained at once; the queue is closed, and the next value is refused. -/
def sampleEnd : Scene Unit :=
  let s := ((Scene.desk draining).set sample "background-color" "red" sampleScene).2
  let s := (Scene.outlet Scene.quiet).close s
  ((Scene.desk draining).set sample "backgroundColor" "blue" s).2

theorem draining_discreet : Discreet sample draining := fun _ s => .single (.drain s)

theorem sampleScene_fresh : Fresh sample sampleScene where
  history := by
    refine Relation.ReflTransGen.tail (.tail (.single ⟨.newTable [], trivial, trivial, rfl⟩)
      ⟨.newCache, trivial, trivial, rfl⟩) ⟨.newStyle, trivial, trivial, rfl⟩
  style_lt := Nat.zero_lt_one
  names_lt := Nat.zero_lt_one
  unstyled := fun c hc => absurd hc List.not_mem_nil

theorem sampleEnd_run : Run sample sampleScene sampleEnd := by
  have hred : Step sample sampleScene _ :=
    .set draining_discreet "background-color" "red" sampleScene
  have hclose : Step sample _ _ :=
    .other (.close ((Scene.desk draining).set sample "background-color" "red" sampleScene).2)
  exact ((Relation.ReflTransGen.single hred).tail hclose).tail
    (.set draining_discreet "backgroundColor" "blue" _)

theorem sampleEnd_replayed_eq_get :
    Fresh sample sampleScene ∧ Run sample sampleScene sampleEnd ∧
      sampleEnd.received.length = 1 ∧
      let (value, t) := (Scene.desk Scene.quiet).get sample "background-color" sampleEnd
      t.holdings.heap.text value = "red" := by
  refine ⟨sampleScene_fresh, sampleEnd_run, by decide +kernel, ?_⟩
  have hreplayed := Run.replayed_eq_get sampleScene_fresh sampleEnd_run Scene.quiet
    "background-color"
  have hred : replayed sample.target (sampleEnd.received ++ sampleEnd.queue.pending.toList)
      (Text.camelCase "background-color") = some "red" := by decide +kernel
  rw [hred] at hreplayed
  exact hreplayed.symm

end ScriptHost.Style

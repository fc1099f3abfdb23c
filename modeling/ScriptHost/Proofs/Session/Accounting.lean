/-
The accounts of atoms in a session.

What the steps of a session do with tables, handles and declarations are deeds and dealings, and
its desks are fair as long as those who react to a signal do whole operations too.  So the accounts
of atoms are right after every run of them.

* `performAtoms_holdings` — a step on tables and handles is the deed that it stands for;
* `desk_fair` — the desk of a session is fair if the steps of reactions are balanced;
* `Dealings.accounts` — after any dealings the counts, lookups and sizes of all tables are right,
  and a refused or needless edit costs at most one holder of its name.
-/
import ScriptHost.Proofs.Holdings.Dealings
import ScriptHost.Proofs.Session.Reactions

namespace ScriptHost.Session

open Holdings (Deed Doing Whole)

/-! ### Steps on tables and handles -/

/-- The deed that a step on tables and handles stands for, where its object is there. -/
def deed? (s : Session) : AtomAction → Option Deed
  | .newTable id pinned => if s.ref? id = none then some (.newTable (pinned.getD [])) else none
  | .intern on text keep => (s.table? on).map fun t => .intern t text keep
  | .takeEmpty on keep => (s.table? on).map fun t => .intern t none (some keep)
  | .clone atom keep => some (.clone atom keep)
  | .drop atom => some (.drop atom)
  | _ => none

/-- A step on tables and handles does to the holdings what its deed does. -/
theorem performAtoms_holdings {a : AtomAction} {d : Deed} {s : Session} (h : deed? s a = some d) :
    (performAtoms a s).2.holdings = d.apply s.holdings := by
  cases a with
  | newTable id pinned =>
    rw [deed?] at h
    split at h
    next hid =>
      injection h with h
      subst h
      -- the name is free, so binding it drops nothing
      have hfree : ref? { s with holdings := (s.holdings.newTable (pinned.getD [])).2 } id = none :=
        hid
      show (Session.bind id (.table s.holdings.tables.size)
        { s with holdings := (s.holdings.newTable (pinned.getD [])).2 }).2.holdings = _
      rw [Session.bind, get_bind_apply, hfree]
      rfl
    next => exact absurd h (by simp)
  | intern on text keep =>
    obtain ⟨t, ht, rfl⟩ := Option.map_eq_some_iff.mp h
    rw [performAtoms, withObject_of_some ht]
    cases text <;> cases keep <;> rfl
  | takeEmpty on keep =>
    obtain ⟨t, ht, rfl⟩ := Option.map_eq_some_iff.mp h
    rw [performAtoms, withObject_of_some ht]
    rfl
  | clone atom keep =>
    injection h with h
    subst h
    rw [Deed.apply]
    cases ha : s.holdings.handle? atom with
    | none =>
      rw [performAtoms, withObject_of_none ha]
    | some a =>
      rw [performAtoms, withObject_of_some ha]
      rfl
  | drop atom =>
    injection h with h
    subst h
    cases ha : s.holdings.handle? atom with
    | none =>
      rw [performAtoms, withObject_of_none ha]
      show s.holdings = s.holdings.dropHandle atom
      rw [Holdings.dropHandle, ha]
    | some a =>
      rw [performAtoms, withObject_of_some ha]
      rfl
  | _ => exact absurd h (by simp [deed?])

/-- Comparing two handles is comparing their atoms. -/
theorem performAtoms_equal {s : Session} {n m : String} {a b : Atom}
    (ha : s.holdings.handle? n = some a) (hb : s.holdings.handle? m = some b) :
    performAtoms (.equal n m) s = (.flag (a = b), s) := by
  rw [performAtoms, withObject_of_some ha, withObject_of_some hb]
  rfl

/-! ### Desks -/

/-- The operation is whole, as far as atoms are concerned. -/
def Balanced {α : Type} (m : SessionM α) : Prop := ∀ s, Whole s.holdings (m s).2.holdings

theorem compositional_balanced : Compositional fun _ => Balanced where
  quiet h s := by
    obtain ⟨_, _, hs⟩ := h s
    rw [hs]
    exact .refl _
  bind hm hf s := (hm s).trans (hf _ _)

variable {p : Performer}

/-- Up to the signal, appending a command does nothing with atoms. -/
theorem holdings_silent_append (i : Nat) (c : Command) (s : Session) :
    ((outlet p i).silent.append c s).2.holdings = s.holdings := by
  cases hclosed : ((outlet p i).queue s).closed with
  | true => rw [Outlet.append_of_closed (outlet p i).silent hclosed]; rfl
  | false => rw [Outlet.silent_append_of_open hclosed]; rfl

/-- Nothing of an edit touches atoms but the edit itself and those who react to its signal. -/
theorem desk_fair (hp : ∀ step, Balanced (p step)) (c : Context) : (desk p c).Fair where
  holdings_setHoldings h s := rfl
  appended command s s' h := by
    have hs' : ((outlet p c.queue).append command s).2 = s' := congrArg Prod.snd h
    have hsilent := holdings_silent_append (p := p) c.queue command s
    show Whole s.holdings s'.holdings
    rcases Outlet.append_snd (outlet p c.queue) command s with hquiet | htold
    · rw [← hs', hquiet, hsilent]
      exact .refl _
    · rw [← hs', htold, ← hsilent]
      exact compositional_balanced.notify hp _ _ _
  refused command s fault s' h := by
    have happend : (outlet p c.queue).append command s = (.error fault, s') := h
    cases hclosed : ((outlet p c.queue).queue s).closed with
    | true =>
      rw [Outlet.append_of_closed (outlet p c.queue) hclosed] at happend
      obtain ⟨-, rfl⟩ := Prod.mk.inj happend
      rfl
    | false =>
      have hok := (outlet p c.queue).append_of_open (c := command) (s := s) hclosed
      rw [happend] at hok
      exact absurd hok (by simp)

end ScriptHost.Session

namespace ScriptHost.Holdings

open Style (Desk Declaration)

variable {s : Holdings}

/-- **Accounts of atoms.**  After any dealings the hand is empty, and the counts of holders, the
lookups and the sizes of tables are right; they are so also in the midst of whatever is done next,
where the hand counts too.  A refused or needless edit changes no count, unless the spelling of its
name is new to the name cache: then the atom of the name, in camel case, has one more holder.  So
the count of the atom of the value stays, unless the value is the name that is remembered. -/
theorem Dealings.accounts (run : Dealings {} s) :
    s.hand = [] ∧ s.Accounted ∧ (∀ s', Steps s s' → s'.Accounted) ∧
      ∀ {σ : Type} {w : Desk σ} {d : Declaration} {name value : String} {u : σ}, w.Fair →
        w.holdings u = s → d.names < s.caches.size →
        (¬ w.SetNeeds d name value u ∨ ∃ fault, (w.set d name value u).1 = .error fault) →
        let s' := w.holdings (w.set d name value u).2
        let known := ((s.cache d.names).lookup name).isSome
        ∃ key, (known = false → s'.heap.Is key d.table (Text.camelCase name)) ∧
          (∀ a, s'.heap.holders a = s.heap.holders a + if known then 0 else [key].count a) ∧
          ∀ a, s.heap.Is a d.table value → known = true ∨ Text.camelCase name ≠ value →
            s'.heap.holders a = s.heap.holders a := by
  have hsound : s.Sound := run.whole.steps.sound sound_empty
  refine ⟨List.perm_nil.mp run.whole.hand, hsound.accounted,
    fun s' hsteps => (hsteps.sound hsound).accounted, ?_⟩
  intro σ w d name value u hw hu hnames hidle
  subst hu
  dsimp only
  have hholders := hw.holders_set_idle hidle hsound hnames
  have hnamed : (((w.holdings u).cache d.names).lookup name).isSome = false →
      (w.holdings (w.set d name value u).2).heap.Is
        ((w.holdings u).resolve d.names d.table name).1 d.table (Text.camelCase name) :=
    fun hnew => hw.set_idle_is hidle (Option.not_isSome_iff_eq_none.mp (by rw [hnew]; decide))
  refine ⟨_, hnamed, hholders, fun a hi hor => ?_⟩
  rw [hholders]
  cases hknown : (((w.holdings u).cache d.names).lookup name).isSome with
  | true => rfl
  | false =>
    -- the name that is remembered is not the value
    have hvalue := (hw.set_idle_whole hidle hnames).steps.extends_heap _ _ _ hi
    have hne : ((w.holdings u).resolve d.names d.table name).1 ≠ a := by
      rintro rfl
      exact hor.resolve_left (by rw [hknown]; decide) ((hnamed hknown).eq hvalue).2
    rw [if_neg Bool.false_ne_true, List.count_singleton, if_neg (by simpa using hne), Nat.add_zero]

end ScriptHost.Holdings

namespace ScriptHost.Session

open Holdings (Dealings Deed)

/-! ### A closed queue -/

/-- Steps of reactions that do nothing. -/
def idle : Performer := fun _ => return .done

/-- A table, a name cache, a declaration and a handle `h` of the text `zig`; the queue is closed. -/
def closedSession : Session where
  holdings := (Deed.intern 0 (some "zig") (some "h")).apply
    (({} : Holdings).newTable []).2.newCache.2.newStyle.2
  queues := #[{ queue := { context := 1, closed := true }, sink := .host 0 }]

/-- Setting a property in that session. -/
def closedSet (name value : String) : Except Fault Unit × Session :=
  (desk idle default).set (declaration default 0 42) name value closedSession

theorem closedSession_dealings : Dealings {} closedSession.holdings :=
  (((Relation.ReflTransGen.single (.deed (.newTable []) _)).tail (.newCache _)).tail
    (.newStyle _)).tail (.deed (.intern 0 (some "zig") (some "h")) _)

theorem closedSession_handle : closedSession.holdings.handle? "h" = some ⟨37⟩ := by decide +kernel

theorem closedSession_cell : closedSession.holdings.heap.cells[37]? = some ⟨0, "zig", 1⟩ := by
  decide +kernel

/-- Another name is set to `zig` and refused: the handle stays the only holder. -/
theorem closedSession_accounts :
    ∃ a, closedSession.holdings.handle? "h" = some a ∧
      (∃ fault, (closedSet "zag" "zig").1 = .error fault) ∧
      (closedSet "zag" "zig").2.holdings.heap.holders a = 1 := by
  obtain ⟨-, -, -, hset⟩ := Dealings.accounts closedSession_dealings
  have hrefused : ∃ fault, (closedSet "zag" "zig").1 = .error fault := ⟨_, rfl⟩
  obtain ⟨key, -, -, hvalue⟩ := hset (desk_fair (fun _ => compositional_balanced.pure _) default) rfl
    Nat.zero_lt_one (Or.inr hrefused)
  have hone := hvalue ⟨37⟩ ⟨_, closedSession_cell, rfl, rfl⟩ (Or.inr (by decide +kernel))
  refine ⟨⟨37⟩, closedSession_handle, hrefused, hone.trans ?_⟩
  rw [Atom.Heap.holders, closedSession_cell]
  rfl

/-- The name `zig` is set to `zig` and refused: the value is not set, and yet its atom has one more
holder, since the name cache has come to remember the name. -/
theorem refused_set_counts_name :
    Dealings {} closedSession.holdings ∧ (∃ fault, (closedSet "zig" "zig").1 = .error fault) ∧
      ∃ a, closedSession.holdings.handle? "h" = some a ∧
        closedSession.holdings.heap.text a = "zig" ∧
        closedSession.holdings.heap.holders a = 1 ∧
        (closedSet "zig" "zig").2.holdings.heap.holders a = 2 := by
  refine ⟨closedSession_dealings, ⟨_, rfl⟩, ⟨37⟩, closedSession_handle, ?_, ?_, by decide +kernel⟩
  · rw [Atom.Heap.text, closedSession_cell]
    rfl
  · rw [Atom.Heap.holders, closedSession_cell]
    rfl

end ScriptHost.Session

/-
Whole operations on what holds atoms.

An operation takes the atoms that it works with into the hand and is over when the hand is as it
was.  `Doing` follows it up to a point: the operations it consists of were ready, each in its turn,
and the atoms it has taken lie on the hand of its caller.  A `Dealing` is a whole operation on
tables, handles, caches and declarations, in whatever way it ends; in the midst of an edit, when
the sink is told of its command, others may do whole operations of their own (`Desk.Fair`).

* `Dealing.whole` — a dealing gives back the hand as it found it;
* `Desk.Fair.holders_set_idle` — a refused or needless edit changes no count, but that a new
  spelling of a name is remembered, which holds the atom of the name once more;
* `Dealings.whole` — and so does any run of dealings.
-/
import ScriptHost.Proofs.Holdings.Contents
import ScriptHost.Proofs.Holdings.Identity
import ScriptHost.Proofs.Style.Edit
import ScriptHost.Proofs.Style.Keyed
import Mathlib.Logic.Relation

namespace ScriptHost.Holdings

variable {s s' s'' : Holdings} {as bs : List Atom} {a : Atom}

/-! ### Steps -/

/-- Any number of operations, each of them ready when its turn comes. -/
abbrev Steps : Holdings → Holdings → Prop :=
  Relation.ReflTransGen fun s s' => ∃ op : Op, op.Ready s ∧ s' = op.apply s

namespace Steps

theorem sound (h : Steps s s') (hs : s.Sound) : s'.Sound := by
  induction h with
  | refl => exact hs
  | tail _ hop ih =>
    obtain ⟨op, hready, rfl⟩ := hop
    exact op.sound_apply ih hready

theorem extends_heap (h : Steps s s') : s.heap.Extends s'.heap := by
  induction h with
  | refl => exact .refl _
  | tail _ hop ih =>
    obtain ⟨op, -, rfl⟩ := hop
    exact ih.trans (op.extends_apply _)

theorem styles_size_le (h : Steps s s') : s.styles.size ≤ s'.styles.size := by
  induction h with
  | refl => exact Nat.le_refl _
  | tail _ hop ih =>
    obtain ⟨op, -, rfl⟩ := hop
    exact Nat.le_trans ih (Style.styles_size_le op)

end Steps

/-! ### The hand -/

theorem hand_takeEmpty (s : Holdings) (t : TableId) :
    (s.takeEmpty t).2.hand = (s.takeEmpty t).1 :: s.hand := by
  rw [takeEmpty]
  split <;> rfl

theorem hand_dropTable (s : Holdings) (t : TableId) : (s.dropTable t).hand = s.hand := by
  rw [dropTable]
  split <;> rfl

theorem hand_dropHandle (s : Holdings) (name : String) : (s.dropHandle name).hand = s.hand := by
  rw [dropHandle]
  split <;> rfl

theorem hand_keep (s : Holdings) (name : String) (a : Atom) :
    (s.keep name a).hand = s.hand.erase a := by
  show (s.dropHandle name).hand.erase a = _
  rw [hand_dropHandle]

theorem hand_assign (s : Holdings) (i : StyleId) (name value : Atom) :
    (s.assign i name value).hand = (s.hand.erase name).erase value := by
  rw [assign]
  dsimp only
  split <;> rfl

theorem hand_copyProperty (s : Holdings) (i : StyleId) (name value : Atom) :
    (s.copyProperty i name value).hand = s.hand := by
  rw [copyProperty]
  split <;> rfl

theorem hand_unassign (s : Holdings) (i : StyleId) (name : Atom) :
    (s.unassign i name).2.hand = (s.unassign i name).1.toList ++ s.hand := by
  rw [unassign]
  dsimp only
  split <;> rfl

/-! ### Operations under way -/

/-- An operation that began with the first holdings has come to the second ones, with some atoms
taken in addition to the hand that it found. -/
structure Doing (taken : List Atom) (s s' : Holdings) : Prop where
  steps : Steps s s'
  hand : s'.hand.Perm (taken ++ s.hand)

/-- A whole operation. -/
abbrev Whole : Holdings → Holdings → Prop := Doing []

namespace Doing

theorem refl (s : Holdings) : Whole s s := ⟨.refl, .refl _⟩

/-- One more operation. -/
theorem op (h : Doing as s s') (op : Op) (hready : op.Ready s')
    (hhand : (op.apply s').hand.Perm (bs ++ s.hand)) : Doing bs s (op.apply s') :=
  ⟨h.steps.tail ⟨op, hready, rfl⟩, hhand⟩

/-- An operation that leaves the hand alone. -/
theorem aside (h : Doing as s s') (op : Op) (hready : op.Ready s')
    (hhand : (op.apply s').hand = s'.hand) : Doing as s (op.apply s') :=
  h.op op hready (hhand ▸ h.hand)

theorem perm (h : Doing as s s') (hperm : as.Perm bs) : Doing bs s s' :=
  ⟨h.steps, h.hand.trans (hperm.append_right _)⟩

/-- Whoever is called in the course of an operation leaves it its atoms. -/
theorem trans (h : Doing as s s') (h' : Whole s' s'') : Doing as s s'' :=
  ⟨h.steps.trans h'.steps, h'.hand.trans h.hand⟩

theorem mem_hand (h : Doing (a :: as) s s') : a ∈ s'.hand :=
  h.hand.mem_iff.mpr List.mem_cons_self

theorem hand_erase (h : Doing (a :: as) s s') : (s'.hand.erase a).Perm (as ++ s.hand) := by
  have herase := h.hand.erase a
  rwa [List.cons_append, List.erase_cons_head] at herase

theorem grab (h : Doing as s s') (ha : a ∈ s'.held) : Doing (a :: as) s (s'.grab a) :=
  h.op (.grab a) ha (h.hand.cons a)

theorem take (h : Doing as s s') (t : TableId) (x : String) :
    Doing ((s'.take t x).1 :: as) s (s'.take t x).2 :=
  h.op (.take t x) trivial (h.hand.cons _)

theorem takeEmpty (h : Doing as s s') (t : TableId) :
    Doing ((s'.takeEmpty t).1 :: as) s (s'.takeEmpty t).2 := by
  refine h.op (.takeEmpty t) trivial ?_
  show (s'.takeEmpty t).2.hand.Perm _
  rw [hand_takeEmpty]
  exact h.hand.cons _

theorem resolve (h : Doing as s s') {c : CacheId} (hc : c < s'.caches.size) (t : TableId)
    (name : String) : Doing ((s'.resolve c t name).1 :: as) s (s'.resolve c t name).2 :=
  h.op (.resolve c t name) hc (h.hand.cons _)

theorem letGo (h : Doing (a :: as) s s') : Doing as s (s'.letGo a) :=
  h.op (.letGo a) h.mem_hand h.hand_erase

theorem settle (h : Doing (a :: as) s s') (keep : Option String) :
    Doing as s (s'.settle keep a) := by
  cases keep with
  | some name => exact h.op (.keep name a) h.mem_hand (hand_keep s' name a ▸ h.hand_erase)
  | none => exact h.letGo

/-- The value of a property is taken, or the empty atom of the table. -/
theorem takeValue (h : Doing as s s') (i : StyleId) (name : Atom) (t : TableId) :
    Doing ((s'.takeValue i name t).1 :: as) s (s'.takeValue i name t).2 := by
  cases hv : (s'.properties i).value? name with
  | some v =>
    rw [Holdings.takeValue, hv]
    exact h.grab (mem_held_of_property (Style.Properties.mem_of_value? hv)).2
  | none =>
    rw [Holdings.takeValue, hv]
    exact h.takeEmpty t

/-- A name and a value pass from the hand into a declaration. -/
theorem assign {name value : Atom} (h : Doing (name :: value :: as) s s') {i : StyleId}
    (hi : i < s'.styles.size) : Doing as s (s'.assign i name value) := by
  have hvalue : value ∈ s'.hand.erase name := h.hand_erase.mem_iff.mpr List.mem_cons_self
  refine h.op (.assign i name value) ⟨hi, h.mem_hand, hvalue⟩ ?_
  have herase := h.hand_erase.erase value
  rw [List.cons_append, List.erase_cons_head] at herase
  exact (hand_assign s' i name value).symm ▸ herase

/-- The value that a property had passes into the hand. -/
theorem unassign (h : Doing as s s') (i : StyleId) (name : Atom) :
    Doing ((s'.unassign i name).1.toList ++ as) s (s'.unassign i name).2 := by
  refine h.op (.unassign i name) trivial ?_
  show (s'.unassign i name).2.hand.Perm _
  rw [hand_unassign, List.append_assoc]
  exact h.hand.append_left _

end Doing

/-! ### Whole operations -/

theorem Doing.takeText (h : Doing as s s') (t : TableId) (text : Option String) :
    Doing ((s'.takeText t text).1 :: as) s (s'.takeText t text).2 := by
  cases text with
  | some x => exact h.take t x
  | none => exact h.takeEmpty t

theorem Deed.whole (d : Deed) (s : Holdings) : Whole s (d.apply s) := by
  have hstart := Doing.refl s
  cases d with
  | newTable pinned => exact hstart.aside (.newTable pinned) trivial rfl
  | intern t text keep => exact (hstart.takeText t text).settle keep
  | clone handle keep =>
    rw [Deed.apply]
    split
    next a ha => exact (hstart.grab (mem_held_of_handle ha)).settle (some keep)
    next => exact hstart
  | drop handle =>
    exact hstart.aside (.dropHandle handle) trivial (hand_dropHandle s handle)
  | dropTable t => exact hstart.aside (.dropTable t) trivial (hand_dropTable s t)

/-- Copying takes a hold of what the source has and still has when its turn comes. -/
theorem copyProperties_whole {i source : StyleId} (hne : i ≠ source) {ps : Style.Properties}
    (hi : i < s.styles.size) (hps : ∀ p ∈ ps, p ∈ s.properties source) :
    Whole s (ps.foldl (fun s (n, v) => s.copyProperty i n v) s) := by
  induction ps generalizing s with
  | nil => exact .refl s
  | cons p ps ih =>
    obtain ⟨n, v⟩ := p
    rw [List.forall_mem_cons] at hps
    obtain ⟨hn, hv⟩ := mem_held_of_property hps.1
    have hcopied : Whole s (s.copyProperty i n v) :=
      (Doing.refl s).aside (.copyProperty i n v) ⟨hi, hn, hv⟩ (hand_copyProperty s i n v)
    -- the source is another declaration, so it is as before
    have hleaves : Style.Leaves ⟨source, 0, 0, 0⟩ (.copyProperty i n v) := hne
    have hsource : (s.copyProperty i n v).properties source = s.properties source :=
      Style.properties_apply hleaves
    have hi' := Nat.lt_of_lt_of_le hi (Style.styles_size_le (s := s) (.copyProperty i n v))
    exact hcopied.trans (ih hi' (hsource ▸ hps.2))

/-- A spelling that a cache does not know is remembered, and with it the atom of the name. -/
theorem count_caches_resolve {c : CacheId} (hc : c < s.caches.size) (t : TableId) (name : String)
    (a : Atom) :
    (slots (List.map (·.2)) (s.resolve c t name).2.caches).count a =
      (slots (List.map (·.2)) s.caches).count a +
        if ((s.cache c).lookup name).isSome then 0 else [(s.resolve c t name).1].count a := by
  have hset := count_slots_setIfInBounds (List.map (·.2)) hc
    (some ((s.cache c).resolve s.heap t name).2.1) a
  rw [slot_cache, slot_some] at hset
  show (slots (List.map (·.2)) (s.caches.setIfInBounds c
      (some ((s.cache c).resolve s.heap t name).2.1))).count a =
    _ + if ((s.cache c).lookup name).isSome then 0
      else [((s.cache c).resolve s.heap t name).1].count a
  cases hl : (s.cache c).lookup name with
  | some b =>
    rw [resolve_of_some _ _ _ _ hl] at hset ⊢
    rw [Option.isSome_some, if_pos rfl]
    dsimp only at hset ⊢
    omega
  | none =>
    rw [resolve_of_none _ _ _ _ hl] at hset ⊢
    rw [List.map_cons, count_cons_eq _ ((s.cache c).map (·.2))] at hset
    rw [Option.isSome_none, if_neg Bool.false_ne_true]
    dsimp only at hset ⊢
    omega

section Idle

variable {c : CacheId} (hc : c < s.caches.size) (t : TableId) (name text : String)
include hc

/-- Taking a name and a text into the hand and letting go of both. -/
theorem resolve_take_whole :
    let named := s.resolve c t name
    let valued := named.2.take t text
    Whole s ((valued.2.letGo named.1).letGo valued.1) :=
  ((((Doing.refl s).resolve hc t name).take t text).perm (.swap _ _ _)).letGo.letGo

theorem holders_resolve_take (hs : s.Sound) (a : Atom) :
    let named := s.resolve c t name
    let valued := named.2.take t text
    ((valued.2.letGo named.1).letGo valued.1).heap.holders a =
      s.heap.holders a + if ((s.cache c).lookup name).isSome then 0 else [named.1].count a := by
  have hwhole := resolve_take_whole hc t name text
  have hafter := (hwhole.steps.sound hs).counted a
  have hbefore := hs.counted a
  have hhand := hwhole.hand.count_eq a
  have hcaches := count_caches_resolve hc t name a
  -- but for the cache, all places hold what they held
  dsimp only
  rw [hafter]
  simp only [count_held, Holdings.letGo, Holdings.take, Holdings.resolve, List.nil_append] at *
  omega

omit hc in
/-- A name that is new to the cache is interned in camel case. -/
theorem resolve_is_of_new (hl : (s.cache c).lookup name = none) :
    (s.resolve c t name).2.heap.Is (s.resolve c t name).1 t (Text.camelCase name) := by
  show ((s.cache c).resolve s.heap t name).2.2.Is ((s.cache c).resolve s.heap t name).1 t _
  rw [resolve_of_none _ _ _ _ hl]
  exact Atom.Heap.is_retain.mpr (Atom.Heap.intern_is s.heap t _)

end Idle

end ScriptHost.Holdings

/-! ### Editing -/

namespace ScriptHost.Style.Desk

open Holdings (Doing Whole)

variable {σ : Type} {w : Desk σ} {d : Declaration} {s : σ}

/-- Appending a command does nothing with atoms but whole operations, those of whoever is told of
it, and nothing at all if it is refused. -/
structure Fair (w : Desk σ) : Prop where
  holdings_setHoldings : ∀ h s, w.holdings (w.setHoldings h s) = h
  appended : ∀ c s s', w.append c s = (.ok (), s') → Whole (w.holdings s) (w.holdings s')
  refused : ∀ c s fault s', w.append c s = (.error fault, s') → w.holdings s' = w.holdings s

namespace Fair

variable (hw : w.Fair)
include hw

theorem holding_eq {α : Type} {f : Holdings → α × Holdings} {a : α} {s' : σ}
    (h : w.holding f s = (a, s')) :
    a = (f (w.holdings s)).1 ∧ w.holdings s' = (f (w.holdings s)).2 := by
  obtain ⟨rfl, rfl⟩ := Prod.mk.inj h
  exact ⟨rfl, hw.holdings_setHoldings _ s⟩

theorem holdings_change (f : Holdings → Holdings) (s : σ) :
    w.holdings (w.change f s) = f (w.holdings s) := hw.holdings_setHoldings _ s

theorem get_doing (name : String) (hnames : d.names < (w.holdings s).caches.size) :
    Doing [(w.get d name s).1] (w.holdings s) (w.holdings (w.get d name s).2) := by
  have hvalued := ((Doing.refl (w.holdings s)).resolve hnames d.table name).takeValue d.style
    ((w.holdings s).resolve d.names d.table name).1 d.table
  rcases hget : w.get d name s with ⟨value, s₁⟩
  obtain ⟨rfl, h₁⟩ := hw.holding_eq hget
  rw [h₁]
  exact (hvalued.perm (.swap _ _ _)).letGo

/-- Setting a property goes on with the atoms of name and value in the hand. -/
theorem set_cases (d : Declaration) (name value : String) (s : σ) :
    let named := (w.holdings s).resolve d.names d.table name
    let valued := named.2.take d.table value
    ∃ s', w.holdings s' = valued.2 ∧ w.SetOutcome d named.1 valued.1 s' (w.set d name value s) ∧
      (w.SetNeeds d name value s ↔
        ((w.holdings s').properties d.style).value? named.1 ≠ some valued.1) := by
  obtain ⟨key, s₁, v, s₂, hkey, hvalue, houtcome⟩ := w.set_outcome d name value s
  have hneeds : w.SetNeeds d name value s ↔
      ((w.holdings s₂).properties d.style).value? key ≠ some v := by
    rw [SetNeeds, hkey]
    dsimp only
    rw [hvalue]
  obtain ⟨rfl, h₁⟩ := hw.holding_eq hkey
  obtain ⟨rfl, h₂⟩ := hw.holding_eq hvalue
  dsimp only
  rw [← h₁]
  exact ⟨s₂, h₂, houtcome, hneeds⟩

theorem set_whole (name value : String) (hnames : d.names < (w.holdings s).caches.size)
    (hstyle : d.style < (w.holdings s).styles.size) :
    Whole (w.holdings s) (w.holdings (w.set d name value s).2) := by
  obtain ⟨s₂, hs₂, houtcome, -⟩ := hw.set_cases d name value s
  have hvalued := ((Doing.refl (w.holdings s)).resolve hnames d.table name).take d.table value
  have hdoing := hvalued.perm (.swap _ _ _)
  rw [← hs₂] at hdoing
  generalize w.set d name value s = r at houtcome ⊢
  cases houtcome with
  | same =>
    rw [hw.holdings_change]
    exact hdoing.letGo.letGo
  | @made s₃ _ happend =>
    -- whoever was told has left both atoms in the hand, and the declaration in its place
    have htold := hdoing.trans (hw.appended _ _ _ happend)
    rw [hw.holdings_change]
    exact htold.assign (Nat.lt_of_lt_of_le hstyle htold.steps.styles_size_le)
  | @refused s₃ _ _ happend =>
    rw [hw.holdings_change, hw.refused _ _ _ _ happend]
    exact hdoing.letGo.letGo

theorem remove_doing (name : String) (hnames : d.names < (w.holdings s).caches.size) :
    Doing (w.remove d name s).1.toOption.toList (w.holdings s)
      (w.holdings (w.remove d name s).2) := by
  obtain ⟨key, s₁, hkey, houtcome⟩ := w.remove_outcome d name s
  obtain ⟨hkey, h₁⟩ := hw.holding_eq hkey
  have hdoing := (Doing.refl (w.holdings s)).resolve hnames d.table name
  rw [← h₁, ← hkey] at hdoing
  generalize w.remove d name s = r at houtcome ⊢
  cases houtcome with
  | @unset value s₂ _ hempty =>
    obtain ⟨rfl, h₂⟩ := hw.holding_eq hempty
    rw [h₂]
    exact hdoing.letGo.takeEmpty d.table
  | @made value s₂ s₃ _ happend hremove =>
    obtain ⟨hvalue, h₃⟩ := hw.holding_eq hremove
    have hremoved := (hdoing.trans (hw.appended _ _ _ happend)).letGo.unassign d.style key
    rw [h₃]
    rwa [← hvalue] at hremoved
  | @gone value s₂ s₃ s₄ _ happend hremove hempty =>
    obtain ⟨hnone, h₃⟩ := hw.holding_eq hremove
    obtain ⟨rfl, h₄⟩ := hw.holding_eq hempty
    have hremoved := (hdoing.trans (hw.appended _ _ _ happend)).letGo.unassign d.style key
    rw [← hnone, ← h₃] at hremoved
    rw [h₄]
    exact hremoved.takeEmpty d.table
  | @refused s₂ fault _ happend =>
    rw [hw.holdings_change, hw.refused _ _ _ _ happend]
    exact hdoing.letGo

/-! ### Edits that come to nothing -/

/-- A refused or needless edit has taken two atoms, let go of them and done nothing else. -/
theorem holdings_set_idle (name value : String)
    (hidle : ¬ w.SetNeeds d name value s ∨ ∃ fault, (w.set d name value s).1 = .error fault) :
    let named := (w.holdings s).resolve d.names d.table name
    let valued := named.2.take d.table value
    w.holdings (w.set d name value s).2 = (valued.2.letGo named.1).letGo valued.1 := by
  obtain ⟨s₂, hs₂, houtcome, hneeds⟩ := hw.set_cases d name value s
  dsimp only
  rw [← hs₂]
  generalize w.set d name value s = r at houtcome hidle ⊢
  cases houtcome with
  | same => rw [hw.holdings_change]
  | made h happend =>
    rcases hidle with hidle | ⟨fault, hfault⟩
    · exact absurd (hneeds.mpr h) hidle
    · exact absurd hfault (by simp)
  | refused h happend => rw [hw.holdings_change, hw.refused _ _ _ _ happend]

section Idle

variable {name value : String}
  (hidle : ¬ w.SetNeeds d name value s ∨ ∃ fault, (w.set d name value s).1 = .error fault)
include hidle

theorem set_idle_whole (hnames : d.names < (w.holdings s).caches.size) :
    Whole (w.holdings s) (w.holdings (w.set d name value s).2) := by
  rw [hw.holdings_set_idle name value hidle]
  exact Holdings.resolve_take_whole hnames d.table name value

/-- A refused or needless edit changes no count, unless the spelling of its name is new: then the
name cache remembers it, and the atom of the name has one more holder. -/
theorem holders_set_idle (hs : (w.holdings s).Sound)
    (hnames : d.names < (w.holdings s).caches.size) (a : Atom) :
    (w.holdings (w.set d name value s).2).heap.holders a = (w.holdings s).heap.holders a +
      if (((w.holdings s).cache d.names).lookup name).isSome then 0
      else [((w.holdings s).resolve d.names d.table name).1].count a := by
  rw [hw.holdings_set_idle name value hidle]
  exact Holdings.holders_resolve_take hnames d.table name value hs a

theorem set_idle_is (hnew : ((w.holdings s).cache d.names).lookup name = none) :
    (w.holdings (w.set d name value s).2).heap.Is
      ((w.holdings s).resolve d.names d.table name).1 d.table (Text.camelCase name) := by
  rw [hw.holdings_set_idle name value hidle]
  have hnamed := Holdings.resolve_is_of_new d.table name hnew
  have hvalued := Atom.Heap.intern_extends _ d.table value _ _ _ hnamed
  exact Atom.Heap.is_release.mpr (Atom.Heap.is_release.mpr hvalued)

end Idle

end Fair
end ScriptHost.Style.Desk

namespace ScriptHost.Holdings

open Style (Desk Declaration)

variable {s s' : Holdings}

/-! ### Dealings -/

/-- Keeps the atom of a result, or lets it go; a fault brings none. -/
def settleResult (s : Holdings) (keep : Option String) : Except Fault Atom → Holdings
  | .ok a => s.settle keep a
  | .error _ => s

/-- A whole operation on tables, handles, caches and declarations.  Those that edit a declaration
do so at a desk of their own, and nothing is known of it but that it is fair. -/
inductive Dealing : Holdings → Holdings → Prop
  | deed (d : Deed) (s : Holdings) : Dealing s (d.apply s)
  | newCache (s : Holdings) : Dealing s s.newCache.2
  | newStyle (s : Holdings) : Dealing s s.newStyle.2
  | resolve {c : CacheId} (t : TableId) (name : String) (keep : Option String) {s : Holdings}
      (hc : c < s.caches.size) :
      Dealing s ((s.resolve c t name).2.settle keep (s.resolve c t name).1)
  | get {σ : Type} {w : Desk σ} (hw : w.Fair) {d : Declaration} (name : String)
      (keep : Option String) {u : σ} (hnames : d.names < (w.holdings u).caches.size) :
      Dealing (w.holdings u) ((w.holdings (w.get d name u).2).settle keep (w.get d name u).1)
  | set {σ : Type} {w : Desk σ} (hw : w.Fair) {d : Declaration} (name value : String) {u : σ}
      (hnames : d.names < (w.holdings u).caches.size)
      (hstyle : d.style < (w.holdings u).styles.size) :
      Dealing (w.holdings u) (w.holdings (w.set d name value u).2)
  | remove {σ : Type} {w : Desk σ} (hw : w.Fair) {d : Declaration} (name : String)
      (keep : Option String) {u : σ} (hnames : d.names < (w.holdings u).caches.size) :
      Dealing (w.holdings u)
        ((w.holdings (w.remove d name u).2).settleResult keep (w.remove d name u).1)
  | copyStyle {i source : StyleId} (hne : i ≠ source) {s : Holdings} (hi : i < s.styles.size) :
      Dealing s (s.copyStyle i source)
  | dropCache (c : CacheId) (s : Holdings) : Dealing s (s.dropCache c)
  | dropStyle (i : StyleId) (s : Holdings) : Dealing s (s.dropStyle i)
  /-- A context is dropped: first its name cache, then its table. -/
  | dropContext (c : CacheId) (t : TableId) (s : Holdings) : Dealing s ((s.dropCache c).dropTable t)

/-- Any number of dealings. -/
abbrev Dealings : Holdings → Holdings → Prop := Relation.ReflTransGen Dealing

theorem Dealing.whole (h : Dealing s s') : Whole s s' := by
  cases h with
  | deed d => exact d.whole s
  | newCache => exact (Doing.refl s).aside .newCache trivial rfl
  | newStyle => exact (Doing.refl s).aside .newStyle trivial rfl
  | resolve t name keep hc => exact ((Doing.refl s).resolve hc t name).settle keep
  | get hw name keep hnames => exact (hw.get_doing name hnames).settle keep
  | set hw name value hnames hstyle => exact hw.set_whole name value hnames hstyle
  | @remove _ w hw d name keep u hnames =>
    have hremoved := hw.remove_doing name hnames
    cases hresult : (w.remove d name u).1 with
    | ok a =>
      rw [hresult] at hremoved
      exact Doing.settle hremoved keep
    | error fault =>
      rw [hresult] at hremoved
      exact hremoved
  | copyStyle hne hi => exact copyProperties_whole hne hi fun _ hp => hp
  | dropCache c => exact (Doing.refl s).aside (.dropCache c) trivial rfl
  | dropStyle i => exact (Doing.refl s).aside (.dropStyle i) trivial rfl
  | dropContext c t =>
    have hdropped := (Doing.refl s).aside (.dropCache c) trivial rfl
    exact hdropped.aside (.dropTable t) trivial (hand_dropTable _ t)

theorem Dealings.whole (run : Dealings s s') : Whole s s' := by
  induction run with
  | refl => exact .refl s
  | tail _ hdealing ih => exact ih.trans hdealing.whole

end ScriptHost.Holdings

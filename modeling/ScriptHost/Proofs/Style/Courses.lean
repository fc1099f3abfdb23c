/-
Edits as courses.

`Course` allows any operation on holdings that keeps name and value of a property together.  Here
this is seen to allow what declarations are for: to be read, edited and copied, those of any context
and at any desk that is fair (`Desk.Fair`), where whoever is told of a command goes on with the
course (`Desk.Pursues`).  So what holds along courses holds of every declaration that there can be.

All that is asked of a context is that its name cache has been used with its own table only
(`Holdings.Remembers`): then the atom of a name and that of a value are of one table.
-/
import ScriptHost.Proofs.Holdings.Dealings
import ScriptHost.Proofs.Style.Ownership
import ScriptHost.Proofs.Style.Rendering

namespace ScriptHost.Style

open Holdings (Op Doing Whole)

variable {c : CacheId} {t : TableId} {s s' : Holdings}

namespace Course

/-- One more operation. -/
theorem op (run : Course c t s s') (op : Op) (hready : op.Ready s') (hresolves : ResolvesIn c t op)
    (hmatches : Matches s' op) : Course c t s (op.apply s') :=
  run.tail ⟨op, hready, hresolves, hmatches, rfl⟩

/-- An operation that leaves every declaration alone. -/
theorem aside (run : Course c t s s') (op : Op) (hready : op.Ready s')
    (hleaves : ∀ d, Leaves d op) : Course c t s (op.apply s') := by
  refine run.op op hready (hleaves ⟨0, 0, t, c⟩).resolvesIn ?_
  cases op with
  | assign i => exact absurd rfl (hleaves ⟨i, 0, 0, 0⟩)
  | copyProperty i => exact absurd rfl (hleaves ⟨i, 0, 0, 0⟩)
  | _ => trivial

/-- Operations that are always possible and leave all declarations alone. -/
theorem of_ops {ops : List Op} (hops : ∀ op ∈ ops, (∀ h, op.Ready h) ∧ ∀ d, Leaves d op) :
    Course c t s (ops.foldl (fun h op => op.apply h) s) := by
  induction ops generalizing s with
  | nil => exact .refl
  | cons op ops ih =>
    rw [List.forall_mem_cons] at hops
    obtain ⟨⟨hready, hleaves⟩, hrest⟩ := hops
    have hfirst : Course c t s (op.apply s) := aside .refl op (hready s) hleaves
    exact hfirst.trans (ih hrest)

theorem letGo_letGo {key v : Atom} {as : List Atom} (run : Course c t s s')
    (hdoing : Doing (key :: v :: as) s s') : Course c t s ((s'.letGo key).letGo v) :=
  (run.aside (.letGo key) hdoing.mem_hand fun _ => trivial).aside (.letGo v)
    hdoing.letGo.mem_hand fun _ => trivial

/-! ### Copying -/

theorem copyProperties {i source : StyleId} (hne : i ≠ source) {ps : Properties}
    (hi : i < s.styles.size) (hps : ∀ p ∈ ps, p ∈ s.properties source) :
    Course c t s (ps.foldl (fun s (n, v) => s.copyProperty i n v) s) := by
  induction ps generalizing s with
  | nil => exact .refl
  | cons p ps ih =>
    obtain ⟨n, v⟩ := p
    rw [List.forall_mem_cons] at hps
    have hcopied : Course c t s (s.copyProperty i n v) :=
      op .refl (.copyProperty i n v) ⟨hi, Holdings.mem_held_of_property hps.1⟩ trivial
        ⟨source, hps.1⟩
    have hleaves : Leaves ⟨source, 0, 0, 0⟩ (.copyProperty i n v) := hne
    have hsource : (s.copyProperty i n v).properties source = s.properties source :=
      properties_apply hleaves
    have hi' := Nat.lt_of_lt_of_le hi (styles_size_le (s := s) (.copyProperty i n v))
    exact hcopied.trans (ih hi' (hsource ▸ hps.2))

/-- Whatever a declaration copies, some declaration has had it. -/
theorem copyStyle {i source : StyleId} (hne : i ≠ source) (hi : i < s.styles.size) :
    Course c t s (s.copyStyle i source) := copyProperties hne hi fun _ hp => hp

end Course

/-! ### Editing -/

/-- Whoever is told of a command goes on with the course. -/
def Desk.Pursues {σ : Type} (w : Desk σ) (c : CacheId) (t : TableId) : Prop :=
  ∀ command u u', w.append command u = (.ok (), u') → Course c t (w.holdings u) (w.holdings u')

namespace Course

variable {σ : Type} {w : Desk σ} {d : Declaration} {u : σ}

theorem resolve (run : Course c t s s') (hd : d.names = c → d.table = t)
    (hnames : d.names < s'.caches.size) (name : String) :
    Course c t s (s'.resolve d.names d.table name).2 :=
  run.op (.resolve d.names d.table name) hnames hd trivial

section

variable (hw : w.Fair) (hd : d.names = c → d.table = t)
  (hnames : d.names < (w.holdings u).caches.size)
include hw hd hnames

theorem get (name : String) : Course c t (w.holdings u) (w.holdings (w.get d name u).2) := by
  have hdoing := (Doing.refl (w.holdings u)).resolve hnames d.table name
  have hrun := resolve .refl hd hnames name
  rcases hget : w.get d name u with ⟨value, u'⟩
  obtain ⟨rfl, h'⟩ := hw.holding_eq hget
  rw [h']
  have htaken := hdoing.takeValue d.style ((w.holdings u).resolve d.names d.table name).1 d.table
  have hrun' : Course c t (w.holdings u) (((w.holdings u).resolve d.names d.table name).2.takeValue
      d.style ((w.holdings u).resolve d.names d.table name).1 d.table).2 := by
    rw [Holdings.takeValue]
    split
    next v hv =>
      have hheld := (Holdings.mem_held_of_property (Properties.mem_of_value? hv)).2
      exact hrun.aside (.grab v) hheld fun _ => trivial
    next => exact hrun.aside (.takeEmpty d.table) trivial fun _ => trivial
  exact hrun'.aside (.letGo _) (htaken.perm (.swap _ _ _)).mem_hand fun _ => trivial

variable (hpursues : w.Pursues c t)
include hpursues

/-- What is set has its name from the cache and its value from the table of the context. -/
theorem set (hnamed : Holdings.Remembers d.names d.table (w.holdings u))
    (hstyle : d.style < (w.holdings u).styles.size) (name value : String) :
    Course c t (w.holdings u) (w.holdings (w.set d name value u).2) := by
  obtain ⟨u₂, hu₂, houtcome, -⟩ := hw.set_cases d name value u
  have hdoing := (((Doing.refl (w.holdings u)).resolve hnames d.table name).take d.table
    value).perm (.swap _ _ _)
  have hrun := (resolve .refl hd hnames name).aside (.take d.table value) trivial fun _ => trivial
  have hkey := (Op.take d.table value).extends_apply _ _ _ _
    (resolve_is_of_names hnamed.names name)
  have hvalue := Atom.Heap.intern_is ((w.holdings u).resolve d.names d.table name).2.heap
    d.table value
  change Course c t (w.holdings u) (Holdings.take _ d.table value).2 at hrun
  change (Holdings.take _ d.table value).2.heap.Is _ _ _ at hkey hvalue
  rw [← hu₂] at hdoing hrun hkey hvalue
  generalize w.set d name value u = r at houtcome ⊢
  cases houtcome with
  | same =>
    rw [hw.holdings_change]
    exact hrun.letGo_letGo hdoing
  | @made u₃ _ happend =>
    -- whoever was told has left both atoms in the hand, and an atom is what it was
    have htold := hdoing.trans (hw.appended _ _ _ happend)
    have hextends := (hw.appended _ _ _ happend).steps.extends_heap
    have hstyle' := Nat.lt_of_lt_of_le hstyle htold.steps.styles_size_le
    have hheld := htold.hand_erase.mem_iff.mpr List.mem_cons_self
    have hrun' : Course c t (w.holdings u) (w.holdings u₃) := hrun.trans (hpursues _ _ _ happend)
    rw [hw.holdings_change]
    exact hrun'.op (.assign d.style _ _)
      ⟨hstyle', htold.mem_hand, hheld⟩ trivial
      ⟨d.table, _, value, hextends _ _ _ hkey, hextends _ _ _ hvalue⟩
  | @refused u₃ _ _ happend =>
    rw [hw.holdings_change, hw.refused _ _ _ _ happend]
    exact hrun.letGo_letGo hdoing

theorem remove (name : String) :
    Course c t (w.holdings u) (w.holdings (w.remove d name u).2) := by
  obtain ⟨key, u₁, hkey, houtcome⟩ := w.remove_outcome d name u
  obtain ⟨hkey, h₁⟩ := hw.holding_eq hkey
  have hdoing := (Doing.refl (w.holdings u)).resolve hnames d.table name
  have hrun := resolve .refl hd hnames name
  rw [← h₁] at hdoing hrun
  rw [← hkey] at hdoing
  -- whether the sink was told or not, the name is let go of
  have hletGo : ∀ {u'}, Whole (w.holdings u₁) (w.holdings u') →
      Course c t (w.holdings u₁) (w.holdings u') →
      Course c t (w.holdings u) ((w.holdings u').letGo key) := by
    intro u' hwhole hcourse
    have hrun' : Course c t (w.holdings u) (w.holdings u') := hrun.trans hcourse
    exact hrun'.aside (.letGo key) (hdoing.trans hwhole).mem_hand fun _ => trivial
  generalize w.remove d name u = r at houtcome ⊢
  cases houtcome with
  | @unset value u₂ _ hempty =>
    obtain ⟨-, h₂⟩ := hw.holding_eq hempty
    rw [h₂]
    exact (hletGo (Doing.refl _) .refl).aside (.takeEmpty d.table) trivial fun _ => trivial
  | @made value u₂ u₃ _ happend hremove =>
    obtain ⟨-, h₃⟩ := hw.holding_eq hremove
    rw [h₃]
    exact (hletGo (hw.appended _ _ _ happend) (hpursues _ _ _ happend)).op
      (.unassign d.style key) trivial trivial trivial
  | @gone value u₂ u₃ u₄ _ happend hremove hempty =>
    obtain ⟨-, h₃⟩ := hw.holding_eq hremove
    obtain ⟨-, h₄⟩ := hw.holding_eq hempty
    have hremoved := (hletGo (hw.appended _ _ _ happend) (hpursues _ _ _ happend)).op
      (.unassign d.style key) trivial trivial trivial
    rw [h₄, h₃]
    exact hremoved.aside (.takeEmpty d.table) trivial fun _ => trivial
  | @refused u₂ fault _ happend =>
    rw [hw.holdings_change, hw.refused _ _ _ _ happend]
    exact hletGo (Doing.refl _) .refl

end

end Course

end ScriptHost.Style

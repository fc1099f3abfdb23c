/-
What belongs to a context.

A context has a queue, an atom table and a name cache which no other context has (`Apart`), and its
table and its cache hold atoms of this table only (`Owned`).  This is kept as long as a name cache
of a context is asked for names of its own table (`Conduct`), since nobody but the context has it,
and new contexts take new places.

* `Added` — what making a context does to its places;
* `spares_disposeContext`, `released` — disposing of a context, and letting its atoms go, leaves
  everything else alone;
* `Spares.untouched` — so every other context is as it was, with all that belongs to it.
-/
import ScriptHost.Proofs.Session.Disposal
import ScriptHost.Proofs.Holdings.Owners

namespace ScriptHost.Session

open Holdings (Op Beside)

/-! ### Places that no other context has -/

/-- No two contexts share a queue, a table or a name cache. -/
def Apart (contexts : Array Context) : Prop :=
  ∀ (i j : Nat) (c d : Context), contexts[i]? = some c → contexts[j]? = some d →
    c.queue = d.queue ∨ c.table = d.table ∨ c.names = d.names → i = j

/-- The table and the name cache of a context hold atoms of its table. -/
def Owned (contexts : Array Context) (h : Holdings) : Prop :=
  ∀ (i : Nat) (c : Context), contexts[i]? = some c → h.Owns c.table c.names

/-- Whatever is done with holdings, the name cache of a context is used with its table only. -/
abbrev Conduct (contexts : Array Context) : Holdings → Holdings → Prop :=
  Relation.ReflTransGen fun h h' => ∃ op : Op,
    (∀ (i : Nat) (c : Context), contexts[i]? = some c → Style.ResolvesIn c.names c.table op) ∧
      h' = op.apply h

/-- An operation that asks no cache for a name. -/
theorem Conduct.op (contexts : Array Context) (h : Holdings) (op : Op)
    (hop : ∀ names t, Style.ResolvesIn names t op) : Conduct contexts h (op.apply h) :=
  .single ⟨op, fun _ c _ => hop c.names c.table, rfl⟩

/-- A context that resolves a name by its cache does so in its table, and no other one is concerned
since the cache is its own. -/
theorem Apart.conduct_resolve {contexts : Array Context} (ha : Apart contexts) {i : Nat}
    {c : Context} (hc : contexts[i]? = some c) (h : Holdings) (name : String) :
    Conduct contexts h (h.resolve c.names c.table name).2 := by
  refine .single ⟨.resolve c.names c.table name, fun j d hd hnames => ?_, rfl⟩
  obtain rfl := ha i j c d hc hd (Or.inr (Or.inr hnames))
  rw [Option.some.inj (hc.symm.trans hd)]

theorem Owned.conduct {contexts : Array Context} {h h' : Holdings} (ho : Owned contexts h)
    (hconduct : Conduct contexts h h') : Owned contexts h' := by
  induction hconduct with
  | refl => exact ho
  | tail _ step ih =>
    obtain ⟨op, hresolves, rfl⟩ := step
    exact fun i c hc => (ih i c hc).apply (hresolves i c hc)

theorem Moves.context {s t : Session} {i : Nat} {c : Context} (h : Moves s t)
    (hc : s.contexts[i]? = some c) :
    t.contexts[i]? = some c ∨ t.contexts[i]? = some { c with valid := false } := by
  induction h with
  | refl => exact Or.inl hc
  | tail _ hmove ih =>
    rcases ih with h | h
    · exact hmove.context h
    · exact Or.inr ((hmove.context h).elim id id)

/-- Where no context has been made, every one was there before, in the same places. -/
theorem Moves.context_before {s t : Session} (h : Moves s t)
    (hsize : t.contexts.size = s.contexts.size) {i : Nat} {c : Context}
    (hc : t.contexts[i]? = some c) : ∃ c₀, s.contexts[i]? = some c₀ ∧
      c₀.queue = c.queue ∧ c₀.table = c.table ∧ c₀.names = c.names := by
  have hi : i < s.contexts.size := hsize ▸ (Array.getElem?_eq_some_iff.mp hc).1
  refine ⟨s.contexts[i], Array.getElem?_eq_getElem hi, ?_⟩
  rcases h.context (Array.getElem?_eq_getElem hi) with h | h
  · rw [Option.some.inj (h.symm.trans hc)]
    exact ⟨rfl, rfl, rfl⟩
  · rw [← Option.some.inj (h.symm.trans hc)]
    exact ⟨rfl, rfl, rfl⟩

theorem Apart.moves {s t : Session} (ha : Apart s.contexts) (h : Moves s t)
    (hsize : t.contexts.size = s.contexts.size) : Apart t.contexts := by
  intro i j c d hc hd hshared
  obtain ⟨c₀, hc₀, hcq, hct, hcn⟩ := h.context_before hsize hc
  obtain ⟨d₀, hd₀, hdq, hdt, hdn⟩ := h.context_before hsize hd
  exact ha i j c₀ d₀ hc₀ hd₀ (by rwa [hcq, hct, hcn, hdq, hdt, hdn])

theorem Owned.moves {s t : Session} (ho : Owned s.contexts s.holdings) (h : Moves s t)
    (hsize : t.contexts.size = s.contexts.size)
    (hconduct : Conduct s.contexts s.holdings t.holdings) : Owned t.contexts t.holdings := by
  intro i c hc
  obtain ⟨c₀, hc₀, -, ht, hn⟩ := h.context_before hsize hc
  exact ht ▸ hn ▸ ho.conduct hconduct i c₀ hc₀

/-! ### New contexts -/

theorem Apart.push {contexts : Array Context} {c : Context} (ha : Apart contexts)
    (hc : ∀ (i : Nat) (d : Context), contexts[i]? = some d →
      d.queue < c.queue ∧ d.table < c.table ∧ d.names < c.names) : Apart (contexts.push c) := by
  have hnew : ∀ (i : Nat) (d : Context), contexts[i]? = some d →
      ¬ (d.queue = c.queue ∨ d.table = c.table ∨ d.names = c.names) := by
    intro i d hd
    obtain ⟨hqueue, htable, hnames⟩ := hc i d hd
    rintro (hq | ht | hn)
    · exact Nat.ne_of_lt hqueue hq
    · exact Nat.ne_of_lt htable ht
    · exact Nat.ne_of_lt hnames hn
  intro i j d e hd he hshared
  rw [Array.getElem?_push] at hd he
  split at hd <;> split at he
  next hi hj => rw [hi, hj]
  next hi hj =>
    obtain rfl := Option.some.inj hd
    exact absurd (hshared.imp Eq.symm (Or.imp Eq.symm Eq.symm)) (hnew j e he)
  next hi hj =>
    obtain rfl := Option.some.inj he
    exact absurd hshared (hnew i d hd)
  next hi hj => exact ha i j d e hd he hshared

/-- What making a context does: everything of it is new. -/
structure Added (id : ContextId) (config : Config) (gate : Nat) (sink : Sink) (s t : Session) :
    Prop where
  contexts : t.contexts = s.contexts.push
    { id, config, gate, queue := s.queues.size, timeline := s.timelines.size
      table := s.holdings.tables.size, names := s.holdings.caches.size }
  queues : t.queues = s.queues.push
    { queue := { context := id, batching := config.batchUpdates }, sink }
  holdings : t.holdings = (s.holdings.newTable config.preintern).2.newCache.2
  registries : t.registries = s.registries

section AddContext

variable (id : ContextId) (config : Config) (gate : Nat) (sink : Sink) (source : Option Nat)
  (s : Session)

theorem addContext_fst : (addContext id config gate sink source s).1 = s.contexts.size := by
  rw [addContext]
  cases config.profile with
  | false =>
    simp only [Bool.false_eq_true, if_false]
    rfl
  | true =>
    simp only [if_true]
    rfl

theorem added_addContext :
    Added id config gate sink s (addContext id config gate sink source s).2 := by
  rw [addContext]
  cases config.profile with
  | false =>
    simp only [Bool.false_eq_true, if_false]
    exact ⟨rfl, rfl, rfl, rfl⟩
  | true =>
    simp only [if_true]
    exact ⟨rfl, rfl, rfl, rfl⟩

end AddContext

namespace Added

variable {id : ContextId} {config : Config} {gate : Nat} {sink : Sink} {s t : Session}
  (h : Added id config gate sink s t)
include h

theorem apart (hs : s.Sound) (ha : Apart s.contexts) (ho : Owned s.contexts s.holdings) :
    Apart t.contexts := by
  rw [h.contexts]
  exact ha.push fun i d hd =>
    ⟨hs.queue_lt i d hd, (ho i d hd).table_lt, (ho i d hd).cache_lt⟩

theorem conduct : Conduct s.contexts s.holdings t.holdings := by
  rw [h.holdings]
  exact (Conduct.op _ s.holdings (.newTable config.preintern) fun _ _ => trivial).trans
    (Conduct.op _ _ .newCache fun _ _ => trivial)

theorem owned (ho : Owned s.contexts s.holdings) : Owned t.contexts t.holdings := by
  intro i c hc
  rw [h.contexts, Array.getElem?_push] at hc
  split at hc
  · obtain rfl := Option.some.inj hc
    exact h.holdings ▸ Holdings.owns_new s.holdings config.preintern
  · exact ho.conduct h.conduct i c hc

end Added

/-! ### Contexts that are disposed of -/

/-- What disposing of a context leaves alone: everything but the context, its queue, what its table
and its name cache hold, registries and the log. -/
structure Spares (i : Nat) (c : Context) (s t : Session) : Prop where
  contexts : ∀ j, j ≠ i → t.contexts[j]? = s.contexts[j]?
  queues : ∀ q, q ≠ c.queue → t.queues[q]? = s.queues[q]?
  holdings : Beside c.table c.names s.holdings t.holdings
  rest : t = { s with
    contexts := t.contexts, queues := t.queues, holdings := t.holdings
    registries := t.registries, effects := t.effects }

/-- The context is as it was, and so are its queue, its timeline, its table with all the atoms in
it, and its name cache. -/
structure Untouched (j : Nat) (d : Context) (s t : Session) : Prop where
  context : t.contexts[j]? = s.contexts[j]?
  queue : t.queues[d.queue]? = s.queues[d.queue]?
  timeline : t.timelines[d.timeline]? = s.timelines[d.timeline]?
  table : t.holdings.tables[d.table]? = s.holdings.tables[d.table]?
  names : t.holdings.caches[d.names]? = s.holdings.caches[d.names]?
  atoms : ∀ (p : Nat) (cell : Atom.Cell), s.holdings.heap.cells[p]? = some cell →
    cell.table = d.table → t.holdings.heap.cells[p]? = some cell

/-- The context has been disposed of, and nothing has happened to any other one. -/
structure Retired (i : Nat) (c : Context) (s t : Session) : Prop where
  disposed : Disposed i { c with valid := false } t
  spares : Spares i c s t
  others : ∀ (j : Nat) (d : Context), j ≠ i → s.contexts[j]? = some d → Untouched j d s t

section Disposal

variable {i : Nat} {c : Context} {s t : Session}

/-- Nothing of another context is touched. -/
theorem Spares.untouched (h : Spares i c s t) (ha : Apart s.contexts)
    (hc : s.contexts[i]? = some c) {j : Nat} {d : Context} (hj : j ≠ i)
    (hd : s.contexts[j]? = some d) : Untouched j d s t := by
  have hne : ¬ (d.queue = c.queue ∨ d.table = c.table ∨ d.names = c.names) := fun hshared =>
    hj (ha j i d c hd hc hshared)
  rw [not_or, not_or] at hne
  obtain ⟨hqueue, htable, hnames⟩ := hne
  have htimelines : t.timelines = s.timelines := by rw [h.rest]
  refine ⟨h.contexts j hj, h.queues d.queue hqueue, congrArg (·[d.timeline]?) htimelines,
    h.holdings.tables d.table htable, h.holdings.caches d.names hnames, fun p cell hp hcell => ?_⟩
  rw [h.holdings.cells p fun cell' hp' => ?_, hp]
  rw [← Option.some.inj (hp.symm.trans hp'), hcell]
  exact htable

theorem size_disposeContext (i : Nat) (s : Session) :
    (disposeContext i s).2.contexts.size = s.contexts.size := by
  rw [disposeContext_snd]
  dsimp only
  split
  · exact Array.size_modify
  · rfl

theorem disposeContext_places (i : Nat) (s : Session) :
    (disposeContext i s).2.registries = s.registries ∧
      (disposeContext i s).2.holdings = s.holdings := by
  rw [disposeContext_snd]
  dsimp only
  split <;> exact ⟨rfl, rfl⟩

theorem spares_disposeContext (hc : s.contexts[i]? = some c) :
    Spares i c s (disposeContext i s).2 := by
  rw [disposeContext_snd, hc]
  dsimp only [Option.getD_some]
  split
  · refine ⟨fun j hj => ?_, fun q hq => ?_, .refl _ _ _, rfl⟩
    · show (s.contexts.modify i _)[j]? = _
      rw [Array.getElem?_modify, if_neg (Ne.symm hj)]
    · show (s.queues.modify c.queue _)[q]? = _
      rw [Array.getElem?_modify, if_neg (Ne.symm hq)]
  · exact ⟨fun _ _ => rfl, fun _ _ => rfl, .refl _ _ _, rfl⟩

/-- What disposing of a context and letting its atoms go does; they are not let go while somebody
holds on to the context. -/
structure Released (i : Nat) (c : Context) (s t : Session) : Prop where
  spares : Spares i c s t
  registries : t.registries = s.registries
  size : t.contexts.size = s.contexts.size
  holdings : t.holdings = if t.holdsContext i then s.holdings
    else (s.holdings.dropCache c.names).dropTable c.table

theorem released (hc : s.contexts[i]? = some c) (ho : s.holdings.Owns c.table c.names) :
    Released i c s (releaseContext i (disposeContext i s).2).2 := by
  have hspares := spares_disposeContext hc
  obtain ⟨hregistries, hholdings⟩ := disposeContext_places i s
  have hsize := size_disposeContext i s
  have hcontext := (disposeContext_spec hc).1
  generalize (disposeContext i s).2 = u at *
  rw [releaseContext, get_bind_apply, hcontext]
  dsimp only
  split
  next hheld =>
    have hheld : u.holdsContext i = true := hheld
    exact ⟨hspares, hregistries, hsize, hholdings.trans (if_pos hheld).symm⟩
  next hheld =>
    have hheld : ¬ u.holdsContext i = true := hheld
    have hdropped : (u.holdings.dropCache c.names).dropTable c.table =
        (s.holdings.dropCache c.names).dropTable c.table := by rw [hholdings]
    have hbeside : Beside c.table c.names s.holdings
        ((u.holdings.dropCache c.names).dropTable c.table) := hdropped ▸ ho.drop
    have hrest : { u with holdings := (u.holdings.dropCache c.names).dropTable c.table } =
        { s with
          contexts := u.contexts, queues := u.queues
          holdings := (u.holdings.dropCache c.names).dropTable c.table
          registries := u.registries, effects := u.effects } :=
      congrArg (fun v : Session => { v with
        holdings := (u.holdings.dropCache c.names).dropTable c.table }) hspares.rest
    exact ⟨⟨hspares.contexts, hspares.queues, hbeside, hrest⟩, hregistries, hsize,
      hdropped.trans (if_neg hheld).symm⟩

theorem conduct_release (contexts : Array Context) (h : Holdings) (c : Context) (held : Bool) :
    Conduct contexts h (if held then h else (h.dropCache c.names).dropTable c.table) := by
  cases held with
  | true => exact .refl
  | false =>
    exact (Conduct.op contexts h (.dropCache c.names) fun _ _ => trivial).trans
      (Conduct.op contexts _ (.dropTable c.table) fun _ _ => trivial)

end Disposal

end ScriptHost.Session

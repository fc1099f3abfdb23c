/-
Registries over the life of a session.

Creations, queries, strikings-out and direct disposals of contexts follow each other in any order,
and in between the session does whatever else it can do.  What a registry answers, and what it
does to the contexts, depends only on what it was asked before:

* `Call.outcome` — what a single call returns and leaves, told from the history up to then;
* `Run.kept` — the invariant: the books of the registry are right (`Ledger`), what stands under a
  name is a context of that name, and what belongs to a context belongs to no other;
* `Run.registered` — both at every point of every run.

Design notes: a context is its place, so that a query returns the context which a creation returned
means that they return the same place.  What the session does besides is `Other`: all its moves,
as long as they make no context, and the making of contexts that belong to no registry or to
another one.  Disposing of a context by way of another registry is disposing of it directly.  Moves
leave open what becomes of atoms; here they are held, and let go, by the operations on holdings, and
the name cache of a context is asked for names of its own table only, since it is nobody else's.
-/
import ScriptHost.Proofs.Session.Belongings
import ScriptHost.Proofs.Registry.Standing

namespace ScriptHost.Session

/-! ### What registries do -/

def registryOf (ρ : Nat) (s : Session) : Registry Nat := (s.registries[ρ]?.getD default).registry

section Registries

variable {ρ : Nat} {s : Session}

theorem registryOf_modifyRegistry (hρ : ρ < s.registries.size) (f : Registry Nat → Registry Nat) :
    registryOf ρ (modifyRegistry ρ f s).2 = f (registryOf ρ s) := by
  show ((s.registries.modify ρ _)[ρ]?.getD default).registry = _
  rw [Array.getElem?_modify, if_pos rfl, registryOf, Array.getElem?_eq_getElem hρ]
  rfl

theorem modifyRegistry_self (hρ : ρ < s.registries.size) :
    (modifyRegistry ρ (fun _ => registryOf ρ s) s).2 = s := by
  have hregistries : (s.registries.modify ρ fun r => { r with registry := registryOf ρ s }) =
      s.registries := by
    refine Array.ext_getElem? fun j => ?_
    rw [Array.getElem?_modify]
    split
    next hj =>
      rw [← hj, registryOf, Array.getElem?_eq_getElem hρ]
      rfl
    next => rfl
  exact congrArg (fun registries => { s with registries }) hregistries

/-- The other registries are not concerned. -/
theorem getElem?_modifyRegistry {r : Nat} (hr : r ≠ ρ) (f : Registry Nat → Registry Nat)
    (s : Session) : (modifyRegistry ρ f s).2.registries[r]? = s.registries[r]? := by
  show (s.registries.modify ρ _)[r]? = _
  rw [Array.getElem?_modify, if_neg (Ne.symm hr)]

/-- A registry that is full refuses, and does nothing but say so. -/
theorem createContext_of_full (hfull : (registryOf ρ s).max ≤ (registryOf ρ s).size)
    (config : Config) : createContext ρ config s =
      (.error (.contextLimit (registryOf ρ s).max),
        (log (.contextLimitReached (registryOf ρ s).max) s).2) := by
  have hnext : (s.registries[ρ]?.getD default).registry.nextContext =
      .error (.contextLimit (registryOf ρ s).max) := if_pos hfull
  have hregistry : registryAt ρ s = (s.registries[ρ]?.getD default, s) := rfl
  rw [createContext, bind_apply, hregistry]
  dsimp only
  rw [hnext]
  rfl

/-- Any other makes a context and enters it under the next name. -/
theorem createContext_of_room (hroom : (registryOf ρ s).size < (registryOf ρ s).max)
    (config : Config) :
    let gate := (s.registries[ρ]?.getD default).gate
    ∃ t, Added (registryOf ρ s).nextId config gate (.host gate) s t ∧
      createContext ρ config s =
        (.ok s.contexts.size, (modifyRegistry ρ (fun r => r.enter s.contexts.size) t).2) := by
  have hnext : (s.registries[ρ]?.getD default).registry.nextContext =
      .ok (registryOf ρ s).nextId := Registry.nextContext_eq_ok_iff.mpr ⟨hroom, rfl⟩
  have hregistry : registryAt ρ s = (s.registries[ρ]?.getD default, s) := rfl
  refine ⟨_, added_addContext _ config (s.registries[ρ]?.getD default).gate _
    (s.registries[ρ]?.getD default).source s, ?_⟩
  rw [createContext, bind_apply, hregistry]
  dsimp only
  rw [hnext]
  dsimp only
  rw [bind_apply, addContext_fst]
  rfl

theorem strikeContext_of_none {id : ContextId} {left : Registry Nat}
    (h : (registryOf ρ s).remove id = (none, left)) :
    strikeContext ρ id s = (false, (modifyRegistry ρ (fun _ => left) s).2) := by
  have hregistry : registryAt ρ s = (s.registries[ρ]?.getD default, s) := rfl
  have hremove : (s.registries[ρ]?.getD default).registry.remove id = (none, left) := h
  rw [strikeContext, bind_apply, hregistry]
  dsimp only
  rw [hremove]
  rfl

theorem strikeContext_of_some {id : ContextId} {i : Nat} {left : Registry Nat}
    (h : (registryOf ρ s).remove id = (some i, left)) :
    strikeContext ρ id s = (true, (releaseContext i
      (disposeContext i (modifyRegistry ρ (fun _ => left) s).2).2).2) := by
  have hregistry : registryAt ρ s = (s.registries[ρ]?.getD default, s) := rfl
  have hremove : (s.registries[ρ]?.getD default).registry.remove id = (some i, left) := h
  rw [strikeContext, bind_apply, hregistry]
  dsimp only
  rw [hremove]
  rfl

end Registries

end ScriptHost.Session

namespace ScriptHost.Registration

open Session

/-! ### Runs -/

/-- A call on a registry, or a direct disposal of a context. -/
inductive Call (ρ : Nat) : Session → Event → Session → Prop
  | create (config : Config) (s : Session) :
      Call ρ s (.create config (createContext ρ config s).1) (createContext ρ config s).2
  | get (id : ContextId) (s : Session) : Call ρ s (.get id ((registryOf ρ s).get? id)) s
  | strike (id : ContextId) (s : Session) :
      Call ρ s (.strike id (strikeContext ρ id s).1) (strikeContext ρ id s).2
  | dispose (i : Nat) (s : Session) : Call ρ s (.dispose i) (disposeContext i s).2

/-- Whatever else a session does that leaves the registry alone. -/
inductive Other (ρ : Nat) : Session → Session → Prop
  | moves {s t : Session} (h : Moves s t) (hcontexts : t.contexts.size = s.contexts.size)
      (hregistry : t.registries[ρ]? = s.registries[ρ]?)
      (hconduct : Conduct s.contexts s.holdings t.holdings) : Other ρ s t
  | newContext (id : ContextId) (config : Config) (gate : Nat) (sink : Sink)
      (source : Option Nat) (s : Session) :
      Other ρ s (addContext id config gate sink source s).2

/-- A run, with what the registry was asked on the way. -/
inductive Run (ρ : Nat) : Session → List Event → Session → Prop
  | nil (s : Session) : Run ρ s [] s
  | other {s t u : Session} {h : List Event} (step : Other ρ s t) (rest : Run ρ t h u) :
      Run ρ s h u
  | call {s t u : Session} {e : Event} {h : List Event} (step : Call ρ s e t)
      (rest : Run ρ t h u) : Run ρ s (e :: h) u

/-- What is true of a registry and of the session around it after a history. -/
structure Kept (ρ max : Nat) (h : List Event) (s : Session) : Prop where
  sound : s.Sound
  apart : Apart s.contexts
  owned : Owned s.contexts s.holdings
  present : ρ < s.registries.size
  ledger : Ledger max h (registryOf ρ s)
  placed : ∀ id i, Standing h id i → ∃ c, s.contexts[i]? = some c ∧ c.id = id

/-- A session with a registry of which nothing has been asked. -/
structure Fresh (ρ max : Nat) (s : Session) : Prop where
  sound : s.Sound
  apart : Apart s.contexts
  owned : Owned s.contexts s.holdings
  registry : ∃ gate source, s.registries[ρ]? = some { registry := { max }, gate, source }

/-- What a call returns and leaves, after a history `h` in a state `u`. -/
inductive Outcome (ρ max : Nat) (h : List Event) (u : Session) : Event → Session → Prop
  /-- While there is room, a new context with a queue, a table and a name cache of its own is made
  and registered; its name is the number of those created before. -/
  | created {config : Config} {c : Context} {v : Session}
      (hroom : (registryOf ρ u).size < max) (hcontexts : v.contexts = u.contexts.push c)
      (hid : c.id = (created h).length) (hconfig : c.config = config) (hvalid : c.valid = true)
      (hgate : c.gate = (u.registries[ρ]?.getD default).gate) (hqueue : c.queue = u.queues.size)
      (htable : c.table = u.holdings.tables.size) (hnames : c.names = u.holdings.caches.size)
      (hqueues : v.queues = u.queues.push
        { queue := { context := c.id, batching := config.batchUpdates }, sink := .host c.gate })
      (hholdings : v.holdings = (u.holdings.newTable config.preintern).2.newCache.2)
      (hregistries : ∀ r, r ≠ ρ → v.registries[r]? = u.registries[r]?)
      (hget : (registryOf ρ v).get? c.id = some u.contexts.size) :
      Outcome ρ max h u (.create config (.ok u.contexts.size)) v
  /-- A full registry refuses, and does nothing but say so. -/
  | full {config : Config} (hfull : (registryOf ρ u).size = max) :
      Outcome ρ max h u (.create config (.error (.contextLimit max)))
        (log (.contextLimitReached max) u).2
  /-- One finds what stands under a name. -/
  | got {id : ContextId} {found : Option Nat} (hfound : ∀ i, found = some i ↔ Standing h id i) :
      Outcome ρ max h u (.get id found) u
  /-- What stands under a name is disposed of, and its atoms are let go unless somebody holds on to
  it; no other name, registry or context is touched. -/
  | struck {id : ContextId} {i : Nat} {c : Context} {v : Session} (hs : Standing h id i)
      (hc : u.contexts[i]? = some c) (hretired : Retired i c u v)
      (hholdings : v.holdings = if v.holdsContext i then u.holdings
        else (u.holdings.dropCache c.names).dropTable c.table)
      (hregistries : ∀ r, r ≠ ρ → v.registries[r]? = u.registries[r]?)
      (hget : ∀ id', (registryOf ρ v).get? id' =
        if id' = id then none else (registryOf ρ u).get? id') :
      Outcome ρ max h u (.strike id true) v
  /-- Where nothing stands under a name, striking it out does nothing. -/
  | absent {id : ContextId} (hs : ∀ i, ¬ Standing h id i) : Outcome ρ max h u (.strike id false) u
  /-- A context that is disposed of directly stays in the registry, and keeps its atoms. -/
  | disposed {i : Nat} {v : Session} (hregistries : v.registries = u.registries)
      (hholdings : v.holdings = u.holdings)
      (hretired : ∀ c, u.contexts[i]? = some c → Retired i c u v) :
      Outcome ρ max h u (.dispose i) v

variable {ρ max : Nat} {h : List Event} {e : Event} {s t u v : Session}

theorem moves_of_other (step : Other ρ s t) : Moves s t := by
  cases step with
  | moves h => exact h
  | newContext id config gate sink source =>
    exact (along_addContext id config gate sink source).orderly s .refl

theorem Call.moves (step : Call ρ s e t) : Moves s t := by
  cases step with
  | create config => exact (along_createContext ρ config).orderly s .refl
  | get id => exact .refl
  | strike id => exact (along_strikeContext ρ id).orderly s .refl
  | dispose i => exact .single (.dispose i s)

theorem Fresh.kept (hs : Fresh ρ max s) : Kept ρ max [] s := by
  obtain ⟨gate, source, hregistry⟩ := hs.registry
  have hledger : registryOf ρ s = { max } := by rw [registryOf, hregistry]; rfl
  refine ⟨hs.sound, hs.apart, hs.owned, (Array.getElem?_eq_some_iff.mp hregistry).1, ?_, ?_⟩
  · exact hledger ▸ .empty max
  · rintro id i ⟨h₁, config, h₂, heq, -⟩
    exact absurd heq.symm (by simp)

/-- A registry that has just been made is as it should be. -/
theorem fresh_addRegistry (hs : s.Sound) (ha : Apart s.contexts)
    (ho : Owned s.contexts s.holdings) (gate max : Nat) (source : Option Nat) :
    Fresh s.registries.size max (addRegistry gate max source s).2 where
  sound := ((along_addRegistry gate max source).orderly s .refl).sound hs
  apart := ha
  owned := ho
  registry := ⟨gate, source, Array.getElem?_push_size⟩

namespace Kept

/-- A context that stands stays where it is, and keeps its name. -/
theorem placed_of_moves (hk : Kept ρ max h s) (hmoves : Moves s t) {id : ContextId} {i : Nat}
    (hs : Standing h id i) : ∃ c, t.contexts[i]? = some c ∧ c.id = id := by
  obtain ⟨c, hc, hid⟩ := hk.placed id i hs
  rcases hmoves.context hc with h | h
  · exact ⟨c, h, hid⟩
  · exact ⟨_, h, hid⟩

theorem other (hk : Kept ρ max h s) (step : Other ρ s t) : Kept ρ max h t := by
  have hmoves := moves_of_other step
  have hregistry : t.registries[ρ]? = s.registries[ρ]? := by
    cases step with
    | moves _ _ hregistry => exact hregistry
    | newContext id config gate sink source =>
      rw [(added_addContext id config gate sink source s).registries]
  have hbelongs : Apart t.contexts ∧ Owned t.contexts t.holdings := by
    cases step with
    | moves h hcontexts _ hconduct =>
      exact ⟨hk.apart.moves h hcontexts, hk.owned.moves h hcontexts hconduct⟩
    | newContext id config gate sink source =>
      have hadded := added_addContext id config gate sink source s
      exact ⟨hadded.apart hk.sound hk.apart hk.owned, hadded.owned hk.owned⟩
  refine ⟨hmoves.sound hk.sound, hbelongs.1, hbelongs.2, ?_, ?_, fun id i =>
    hk.placed_of_moves hmoves⟩
  · have hsome := hregistry.trans (Array.getElem?_eq_getElem hk.present)
    exact (Array.getElem?_eq_some_iff.mp hsome).1
  · rw [registryOf, hregistry]
    exact hk.ledger

/-- A step that makes no context and leaves the registry in order leaves all in order. -/
theorem call (hk : Kept ρ max h u) (hmoves : Moves u v)
    (hcontexts : v.contexts.size = u.contexts.size)
    (hconduct : Conduct u.contexts u.holdings v.holdings)
    (hregistries : v.registries.size = u.registries.size)
    (hcreate : created [e] = []) (hledger : Ledger max (h ++ [e]) (registryOf ρ v)) :
    Kept ρ max (h ++ [e]) v where
  sound := hmoves.sound hk.sound
  apart := hk.apart.moves hmoves hcontexts
  owned := hk.owned.moves hmoves hcontexts hconduct
  present := hregistries ▸ hk.present
  ledger := hledger
  placed id i hs := by
    rcases standing_concat.mp hs with ⟨hs, -⟩ | ⟨config, rfl, -⟩
    · exact hk.placed_of_moves hmoves hs
    · exact absurd hcreate (List.cons_ne_nil i _)

theorem create_of_room (hk : Kept ρ max h u) (hroom : (registryOf ρ u).size < max)
    (config : Config) :
    Outcome ρ max h u (.create config (createContext ρ config u).1) (createContext ρ config u).2 ∧
      Kept ρ max (h ++ [.create config (createContext ρ config u).1])
        (createContext ρ config u).2 := by
  have hmoves := (Call.create (ρ := ρ) config u).moves
  have hid : ((registryOf ρ u).nextId : Int) = (created h).length :=
    congrArg Int.ofNat hk.ledger.nextId_eq
  obtain ⟨t, hadded, hcreate⟩ := createContext_of_room (hk.ledger.max_eq.symm ▸ hroom) config
  rw [hcreate] at hmoves ⊢
  have hledger : Ledger max (h ++ [.create config (.ok u.contexts.size)])
      (registryOf ρ (modifyRegistry ρ (fun r => r.enter u.contexts.size) t).2) := by
    have hregistry : registryOf ρ t = registryOf ρ u := by
      rw [registryOf, hadded.registries]
      rfl
    rw [registryOf_modifyRegistry (hadded.registries ▸ hk.present), hregistry]
    exact hk.ledger.create hroom config _
  constructor
  · have hstands : Standing (h ++ [.create config (.ok u.contexts.size)]) (created h).length
        u.contexts.size := standing_concat.mpr (Or.inr ⟨config, rfl, rfl⟩)
    refine .created hroom hadded.contexts hid rfl rfl rfl rfl rfl rfl hadded.queues
      hadded.holdings (fun r hr => ?_) ?_
    · rw [getElem?_modifyRegistry hr, hadded.registries]
    · exact hledger.get?_iff.mpr (hid ▸ hstands)
  · refine ⟨hmoves.sound hk.sound, hadded.apart hk.sound hk.apart hk.owned, hadded.owned hk.owned,
      ?_, hledger, fun id i hs => ?_⟩
    · show ρ < (t.registries.modify ρ _).size
      rw [Array.size_modify, hadded.registries]
      exact hk.present
    · rcases standing_concat.mp hs with ⟨hs, -⟩ | ⟨config', heq, rfl⟩
      · exact hk.placed_of_moves hmoves hs
      · cases heq
        have hlast : t.contexts[u.contexts.size]? = _ :=
          (congrArg (·[u.contexts.size]?) hadded.contexts).trans Array.getElem?_push_size
        exact ⟨_, hlast, hid⟩

theorem create_of_full (hk : Kept ρ max h u) (hroom : ¬ (registryOf ρ u).size < max)
    (config : Config) :
    Outcome ρ max h u (.create config (createContext ρ config u).1) (createContext ρ config u).2 ∧
      Kept ρ max (h ++ [.create config (createContext ρ config u).1])
        (createContext ρ config u).2 := by
  have hle := Nat.le_of_not_lt hroom
  have hmoves := (Call.create (ρ := ρ) config u).moves
  rw [createContext_of_full (hk.ledger.max_eq.symm ▸ hle) config, hk.ledger.max_eq] at hmoves ⊢
  constructor
  · exact .full (Nat.le_antisymm hk.ledger.size_le hle)
  · exact hk.call hmoves rfl .refl rfl rfl (hk.ledger.other rfl (by nofun))

theorem strike_of_standing (hk : Kept ρ max h u) {id : ContextId} {i : Nat}
    (hs : Standing h id i) :
    Outcome ρ max h u (.strike id (strikeContext ρ id u).1) (strikeContext ρ id u).2 ∧
      Kept ρ max (h ++ [.strike id (strikeContext ρ id u).1]) (strikeContext ρ id u).2 := by
  obtain ⟨c, hc, -⟩ := hk.placed id i hs
  have hfound : ((registryOf ρ u).remove id).1 = some i := hk.ledger.get?_iff.mpr hs
  obtain ⟨hmoves, hinvalid, -⟩ := (Disposing.struck ρ id u hfound).spec hc
  have hdisposed := (hmoves.sound hk.sound).disposed hinvalid rfl
  obtain ⟨left, hleft⟩ : ∃ left, left = ((registryOf ρ u).remove id).2 := ⟨_, rfl⟩
  have hstrike := strikeContext_of_some (Prod.ext hfound hleft.symm :
    (registryOf ρ u).remove id = (some i, left))
  -- but for the registry, the context is disposed of where nothing has happened yet
  have hreleased : Released i c (modifyRegistry ρ (fun _ => left) u).2 _ :=
    released hc (hk.owned i c hc)
  generalize (releaseContext i _).2 = v at hstrike hreleased
  rw [hstrike] at hmoves hdisposed ⊢
  have hspares : Spares i c u v := ⟨hreleased.spares.contexts, hreleased.spares.queues,
    hreleased.spares.holdings, hreleased.spares.rest⟩
  have hholdings : v.holdings = if v.holdsContext i then u.holdings
      else (u.holdings.dropCache c.names).dropTable c.table := hreleased.holdings
  have hregistry : registryOf ρ v = left := by
    rw [registryOf, hreleased.registries]
    exact registryOf_modifyRegistry hk.present _
  constructor
  · refine .struck hs hc ⟨hdisposed, hspares, fun j d hj hd =>
      hspares.untouched hk.apart hc hj hd⟩ hholdings (fun r hr => ?_) fun id' => ?_
    · rw [hreleased.registries, getElem?_modifyRegistry hr]
    · rw [hregistry, hleft, Registry.get?_remove]
  · refine hk.call hmoves hreleased.size ?_ ?_ rfl ?_
    · rw [hholdings]
      exact conduct_release u.contexts u.holdings c _
    · rw [hreleased.registries]
      exact Array.size_modify
    · rw [hregistry, hleft]
      exact hk.ledger.strike id true

theorem strike_of_absent (hk : Kept ρ max h u) {id : ContextId} (hs : ∀ i, ¬ Standing h id i) :
    Outcome ρ max h u (.strike id (strikeContext ρ id u).1) (strikeContext ρ id u).2 ∧
      Kept ρ max (h ++ [.strike id (strikeContext ρ id u).1]) (strikeContext ρ id u).2 := by
  have hremove := hk.ledger.remove_of_not_standing hs
  have hledger := hk.ledger.strike id false
  rw [hremove] at hledger
  rw [strikeContext_of_none hremove, modifyRegistry_self hk.present]
  exact ⟨.absent hs, hk.call .refl rfl .refl rfl rfl hledger⟩

theorem dispose (hk : Kept ρ max h u) (i : Nat) :
    Outcome ρ max h u (.dispose i) (disposeContext i u).2 ∧
      Kept ρ max (h ++ [.dispose i]) (disposeContext i u).2 := by
  have hmoves : Moves u (disposeContext i u).2 := .single (.dispose i u)
  obtain ⟨hregistries, hholdings⟩ := disposeContext_places i u
  constructor
  · refine .disposed hregistries hholdings fun c hc => ?_
    obtain ⟨-, hinvalid, -⟩ := (Disposing.directly u).spec hc
    have hspares := spares_disposeContext hc
    exact ⟨(hmoves.sound hk.sound).disposed hinvalid rfl, hspares, fun j d hj hd =>
      hspares.untouched hk.apart hc hj hd⟩
  · refine hk.call hmoves (size_disposeContext i u) (hholdings ▸ .refl)
      (congrArg Array.size hregistries) rfl ?_
    rw [registryOf, hregistries]
    exact hk.ledger.other rfl (by nofun)

end Kept

/-- **What a call does** is told by the history: it returns what it should, leaves alone what it
should, and keeps the books in order. -/
theorem Call.outcome (hk : Kept ρ max h u) (step : Call ρ u e v) :
    Outcome ρ max h u e v ∧ Kept ρ max (h ++ [e]) v := by
  cases step with
  | create config =>
    by_cases hroom : (registryOf ρ u).size < max
    · exact hk.create_of_room hroom config
    · exact hk.create_of_full hroom config
  | get id =>
    refine ⟨.got fun i => hk.ledger.get?_iff, ?_⟩
    exact hk.call .refl rfl .refl rfl rfl (hk.ledger.other rfl (by nofun))
  | strike id =>
    by_cases hs : ∃ i, Standing h id i
    · obtain ⟨i, hs⟩ := hs
      exact hk.strike_of_standing hs
    · exact hk.strike_of_absent (not_exists.mp hs)
  | dispose i => exact hk.dispose i

/-! ### What is true at every point -/

/-- What a registry of `max` contexts holds after a history. -/
structure Registered (ρ max : Nat) (h : List Event) (s : Session) : Prop where
  bounded : (registryOf ρ s).size ≤ max
  counted : ∃ ids : List ContextId, ids.Nodup ∧ ids.length = (registryOf ρ s).size ∧
    ∀ id, id ∈ ids ↔ ∃ i, Standing h id i
  /-- A name is that of the context that was created under it, as long as it stands. -/
  found : ∀ id i, (registryOf ρ s).get? id = some i ↔ Standing h id i
  named : ∀ id i, Standing h id i → ∃ c, s.contexts[i]? = some c ∧ c.id = id

theorem Kept.toRegistered (hk : Kept ρ max h s) : Registered ρ max h s where
  bounded := hk.ledger.size_le
  counted := hk.ledger.counted
  found _ _ := hk.ledger.get?_iff
  named := hk.placed

namespace Run

theorem moves (run : Run ρ s h t) : Moves s t := by
  induction run with
  | nil => exact .refl
  | other step _ ih => exact (moves_of_other step).trans ih
  | call step _ ih => exact step.moves.trans ih

theorem trans {h' : List Event} (run : Run ρ s h t) (rest : Run ρ t h' u) :
    Run ρ s (h ++ h') u := by
  induction run with
  | nil => exact rest
  | other step _ ih => exact .other step (ih rest)
  | call step _ ih => exact .call step (ih rest)

/-- The books stay in order, whatever was asked before. -/
theorem kept {h₀ : List Event} (run : Run ρ s h t) (hk : Kept ρ max h₀ s) :
    Kept ρ max (h₀ ++ h) t := by
  induction run generalizing h₀ with
  | nil => exact (List.append_nil h₀).symm ▸ hk
  | other step _ ih => exact ih (hk.other step)
  | @call _ _ _ e h step _ ih =>
    have hrest := ih (step.outcome hk).2
    rwa [List.append_assoc] at hrest

/-- A run passes the state in which a call was made, and the one that it left. -/
theorem split {h₁ h₂ : List Event} (run : Run ρ s (h₁ ++ e :: h₂) t) :
    ∃ u v, Run ρ s h₁ u ∧ Call ρ u e v ∧ Run ρ v h₂ t := by
  generalize hh : h₁ ++ e :: h₂ = h at run
  induction run generalizing h₁ with
  | nil => exact absurd hh (by simp)
  | other step _ ih =>
    obtain ⟨u, v, hu, hcall, hv⟩ := ih hh
    exact ⟨u, v, .other step hu, hcall, hv⟩
  | call step rest ih =>
    rcases h₁ with _ | ⟨e', h₁⟩
    · obtain ⟨rfl, rfl⟩ := List.cons_eq_cons.mp hh
      exact ⟨_, _, .nil _, step, rest⟩
    · obtain ⟨rfl, rfl⟩ := List.cons_eq_cons.mp hh
      obtain ⟨u, v, hu, hcall, hv⟩ := ih rfl
      exact ⟨u, v, .call step hu, hcall, hv⟩

/-- **A registry keeps its promises.**  Whatever limit it has and whatever is done in whatever
order: it never holds more contexts than its limit, it holds exactly those that were created and
not struck out since, each under the number of those created before it; and every call does what
is right after the calls before it. -/
theorem registered (hs : Fresh ρ max s) (run : Run ρ s h t) :
    Registered ρ max h t ∧ ∀ h₁ e h₂, h = h₁ ++ e :: h₂ →
      ∃ u v, Run ρ s h₁ u ∧ Call ρ u e v ∧ Run ρ v h₂ t ∧
        Registered ρ max h₁ u ∧ Outcome ρ max h₁ u e v := by
  have hkept : ∀ {h u}, Run ρ s h u → Kept ρ max h u := fun run => run.kept hs.kept
  refine ⟨(hkept run).toRegistered, fun h₁ e h₂ heq => ?_⟩
  obtain ⟨u, v, hu, hcall, hv⟩ := (heq ▸ run : Run ρ s (h₁ ++ e :: h₂) t).split
  exact ⟨u, v, hu, hcall, hv, (hkept hu).toRegistered, (hcall.outcome (hkept hu)).1⟩

end Run

/-! ### A registry of one -/

/-- A session with a context that belongs to no registry. -/
def lonelySession : Session := (addContext 9 {} 0 (.host 0) none {}).2

/-- A registry besides that has room for one context. -/
def narrowSession : Session := (addRegistry 0 1 none lonelySession).2

theorem narrowSession_fresh : Fresh 0 1 narrowSession := by
  have hadded : Added 9 {} 0 (.host 0) {} lonelySession := added_addContext 9 {} 0 (.host 0) none {}
  have hother : Other 0 {} lonelySession := .newContext 9 {} 0 (.host 0) none {}
  have howned : Owned ({} : Session).contexts ({} : Session).holdings := fun i c hc => by simp at hc
  refine fresh_addRegistry ((moves_of_other hother).sound sound_empty) ?_ (hadded.owned howned)
    0 1 none
  exact hadded.apart sound_empty (fun i j c d hc => by simp at hc) howned

/-- A context that has been disposed of directly leaves no room for another one, and is found
until it is struck out. -/
def narrowHistory : List Event :=
  [.create {} (.ok 1), .dispose 1, .create {} (.error (.contextLimit 1)), .get 0 (some 1),
    .strike 0 true, .strike 0 false]

/-- After all this, the context that was there before resolves a name. -/
theorem narrowHistory_run : ∃ t, Run 0 narrowSession narrowHistory t := by
  obtain ⟨t, hrun⟩ : ∃ t, Run 0 narrowSession narrowHistory t :=
    ⟨_, .call (.create {} _) (.call (.dispose 1 _) (.call (.create {} _) (.call (.get 0 _)
      (.call (.strike 0 _) (.call (.strike 0 _) (.nil _))))))⟩
  obtain ⟨c, hc⟩ : ∃ c, t.contexts[0]? = some c := by
    obtain ⟨d, hd⟩ : ∃ d, narrowSession.contexts[0]? = some d := ⟨_, rfl⟩
    exact (hrun.moves.context hd).elim (fun h => ⟨_, h⟩) fun h => ⟨_, h⟩
  have hapart := (hrun.kept narrowSession_fresh.kept).apart
  have hname : Other 0 t
      { t with holdings := (t.holdings.resolve c.names c.table "color").2 } :=
    .moves (.single (.elsewhere ⟨rfl, rfl, rfl, rfl⟩)) rfl rfl
      (hapart.conduct_resolve hc t.holdings "color")
  exact ⟨_, hrun.trans (.other hname (.nil _))⟩

/-- That context is not concerned by what becomes of the other one. -/
theorem narrowHistory_registered : ∃ t u, Run 0 narrowSession narrowHistory t ∧
    Run 0 narrowSession [.create {} (.ok 1), .dispose 1] u ∧
    (registryOf 0 u).get? 0 = some 1 ∧ (∀ i, (registryOf 0 t).get? 0 ≠ some i) ∧
    ∃ v w d, Call 0 v (.strike 0 true) w ∧ v.contexts[0]? = some d ∧ d.id = 9 ∧
      Untouched 0 d v w := by
  obtain ⟨t, hrun⟩ := narrowHistory_run
  obtain ⟨hend, hcalls⟩ := hrun.registered narrowSession_fresh
  obtain ⟨u, -, hu, -, -, hregistered, -⟩ := hcalls [.create {} (.ok 1), .dispose 1] _ _ rfl
  obtain ⟨v, w, hv, hstrike, -, hbefore, houtcome⟩ := hcalls [.create {} (.ok 1), .dispose 1,
    .create {} (.error (.contextLimit 1)), .get 0 (some 1)] _ _ rfl
  refine ⟨t, u, hrun, hu, ?_, fun i hget => ?_, v, w, ?_⟩
  · have hstands : Standing [.create {} (.ok 1), .dispose 1] 0 1 :=
      ⟨[], {}, [.dispose 1], rfl, rfl, by simp⟩
    exact (hregistered.found 0 1).mpr hstands
  · have hstands : Standing ([.create {} (.ok 1), .dispose 1,
        .create {} (.error (.contextLimit 1)), .get 0 (some 1), .strike 0 true] ++
          [.strike 0 false]) 0 i := (hend.found 0 i).mp hget
    rcases standing_concat.mp hstands with ⟨-, hstrike⟩ | ⟨config, heq, -⟩
    · exact hstrike false rfl
    · cases heq
  · obtain ⟨d, hd, hid⟩ : ∃ d, v.contexts[0]? = some d ∧ d.id = 9 := by
      obtain ⟨d, hd, hid⟩ : ∃ d, narrowSession.contexts[0]? = some d ∧ d.id = 9 := ⟨_, rfl, rfl⟩
      rcases hv.moves.context hd with h | h
      · exact ⟨d, h, hid⟩
      · exact ⟨_, h, hid⟩
    cases houtcome with
    | @struck _ i c _ hs _ hretired =>
      have hstands : Standing [.create {} (.ok 1), .dispose 1,
          .create {} (.error (.contextLimit 1)), .get 0 (some 1)] 0 1 :=
        ⟨[], {}, _, rfl, rfl, by simp⟩
      have hi : some i = some 1 :=
        ((hbefore.found 0 i).mpr hs).symm.trans ((hbefore.found 0 1).mpr hstands)
      have hne : 0 ≠ i := fun h => by cases h ▸ hi
      exact ⟨d, hstrike, hd, hid, hretired.others 0 d hne hd⟩

end ScriptHost.Registration

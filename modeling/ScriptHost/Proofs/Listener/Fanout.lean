/-
What a dispatch does, whatever its listeners do.

A listener may change the roster, invalidate the context, fail, or start a dispatch of its own.  A
dispatch is described by its turns, each with the states in which it began and ended: `Fanout`
says which handles get a turn, in which order, and what a turn is.  The main facts:

* `turns_fanout` — the loop over the handles is a fan-out;
* `dispatch_fanout` — so is a dispatch, and its report counts the turns and the failures.

Design notes: nothing is known of a listener but that it works on the roster by its operations
(`Lawful`).  The turns are linked by their states, so nothing happens between two turns, and what a
nested dispatch does happens between the two states of one turn.
-/
import ScriptHost.Listener.Dispatch
import ScriptHost.Proofs.Listener.Roster

namespace ScriptHost

/-- One turn as it went. -/
structure Turn (σ L : Type) where
  handle : Handle
  listener : L
  /-- The state in which the listener was called. -/
  before : σ
  failure : Option String
  /-- The state in which the turn ended, a failure having been reported. -/
  after : σ

/-- What a dispatch keeps of a turn. -/
def Turn.delivery {σ L : Type} (x : Turn σ L) : Delivery := ⟨x.handle, x.failure⟩

namespace Surroundings

variable {σ L : Type} {w : Surroundings σ L} {e : ModuleEvent}

/-- The roster changes by its operations only, and the log changes neither it nor the context. -/
structure Lawful (w : Surroundings σ L) : Prop where
  roster_log (l : Log) (s : σ) : w.roster (w.log l s) = w.roster s
  isValid_log (l : Log) (s : σ) : w.isValid (w.log l s) = w.isValid s
  call_later (l : L) (e : ModuleEvent) (s : σ) :
    (w.roster s).Later (w.roster (w.call l e s).2)
  report_later (message : String) (s : σ) : (w.roster s).Later (w.roster (w.report message s))

/-- The state that turns lead to. -/
def reached : σ → List (Turn σ L) → σ
  | s, [] => s
  | _, x :: xs => reached x.after xs

/-- Turns that follow each other from a state on, with nothing in between. -/
def Linked : σ → List (Turn σ L) → Prop
  | _, [] => True
  | s, x :: xs => x.before = s ∧ Linked x.after xs

/-- The turns of the first handles. -/
def turnsOf (pre : List Handle) (xs : List (Turn σ L)) : List (Turn σ L) :=
  xs.filter (·.handle ∈ pre)

/-- The turn is the one of a listener who is registered when it comes, on a valid context; the
listener is told the event, and its failure is reported once. -/
structure Genuine (w : Surroundings σ L) (e : ModuleEvent) (x : Turn σ L) : Prop where
  registered : (w.roster x.before).find? x.handle = some x.listener
  isValid_before : w.isValid x.before = true
  called : (x.failure, x.after) =
    match w.call x.listener e x.before with
    | (none, s) => (none, s)
    | (some message, s) => (some message, w.report message s)

/-- From a state on, the turns of some handles are these. -/
structure Fanout (w : Surroundings σ L) (e : ModuleEvent) (s : σ) (hs : List Handle)
    (xs : List (Turn σ L)) : Prop where
  genuine : ∀ x ∈ xs, w.Genuine e x
  linked : Linked s xs
  /-- Turns come in the order of the handles, each at most once. -/
  ordered : (xs.map (·.handle)).Sublist hs
  /-- A handle gets its turn exactly if the context was valid at the end of all turns before it
  and the handle is registered when its turn comes. -/
  called_iff : ∀ pre h post, hs = pre ++ h :: post →
    (h ∈ xs.map (·.handle) ↔
      (∀ x ∈ turnsOf pre xs, w.isValid x.after = true) ∧
        h ∈ (w.roster (reached s (turnsOf pre xs))).handles)

/-- Ends a dispatch: on an invalid context nobody stays registered. -/
def settled (w : Surroundings σ L) (s : σ) : σ := if w.isValid s then s else w.unlink s

theorem settled_of_isValid {s : σ} (hs : w.isValid s = true) : w.settled s = s := if_pos hs

/-! ### Turns of the first handles -/

theorem turnsOf_nil (xs : List (Turn σ L)) : turnsOf [] xs = [] := by
  simp [turnsOf]

/-- A handle that gets no turn does not count. -/
theorem turnsOf_cons_of_not_mem {h : Handle} {xs : List (Turn σ L)}
    (hh : h ∉ xs.map (·.handle)) (pre : List Handle) :
    turnsOf (h :: pre) xs = turnsOf pre xs := by
  refine List.filter_congr fun x hx => ?_
  have hne : x.handle ≠ h := fun he => hh (he ▸ List.mem_map_of_mem hx)
  simp [hne]

theorem turnsOf_cons_self {x : Turn σ L} {xs : List (Turn σ L)}
    (hh : x.handle ∉ xs.map (·.handle)) (pre : List Handle) :
    turnsOf (x.handle :: pre) (x :: xs) = x :: turnsOf pre xs := by
  rw [← turnsOf_cons_of_not_mem hh pre]
  exact List.filter_cons_of_pos (by simp)

/-! ### One handle more -/

namespace Fanout

variable {s : σ} {h : Handle} {hs : List Handle} {xs : List (Turn σ L)}

theorem not_mem (hf : w.Fanout e s hs xs) (hh : h ∉ hs) : h ∉ xs.map (·.handle) :=
  fun hm => hh (hf.ordered.subset hm)

theorem nil (s : σ) : w.Fanout e s [] [] where
  genuine := fun _ hx => absurd hx List.not_mem_nil
  linked := trivial
  ordered := List.Sublist.refl _
  called_iff := fun pre h post hsplit => by simp at hsplit

/-- A handle that is not registered when its turn comes is passed over. -/
theorem skip (hf : w.Fanout e s hs xs) (hh : h ∉ hs) (hnone : (w.roster s).find? h = none) :
    w.Fanout e s (h :: hs) xs where
  genuine := hf.genuine
  linked := hf.linked
  ordered := hf.ordered.cons h
  called_iff := by
    intro pre g post hsplit
    rcases pre with _ | ⟨h', pre⟩
    · obtain ⟨rfl, rfl⟩ := List.cons_eq_cons.mp hsplit
      rw [turnsOf_nil]
      exact ⟨fun hm => absurd hm (hf.not_mem hh),
        fun hm => absurd hm.2 (Roster.find?_eq_none_iff.mp hnone)⟩
    · obtain ⟨rfl, htail⟩ := List.cons_eq_cons.mp hsplit
      rw [turnsOf_cons_of_not_mem (hf.not_mem hh)]
      exact hf.called_iff pre g post htail

/-- No turn comes before that of the first handle, which is registered as its turn is genuine. -/
theorem head_called {x : Turn σ L} (hx : w.Genuine e x) (xs : List (Turn σ L)) :
    x.handle ∈ (x :: xs).map (·.handle) ↔
      (∀ y ∈ turnsOf [] (x :: xs), w.isValid y.after = true) ∧
        x.handle ∈ (w.roster (reached x.before (turnsOf [] (x :: xs)))).handles := by
  have hregistered : x.handle ∈ (w.roster x.before).handles := by
    rw [← Roster.find?_isSome_iff, hx.registered]
    rfl
  rw [turnsOf_nil]
  exact ⟨fun _ => ⟨fun y hy => absurd hy List.not_mem_nil, hregistered⟩,
    fun _ => List.mem_cons_self⟩

/-- A turn that leaves the context valid is followed by the turns of the other handles. -/
theorem cons {x : Turn σ L} (hx : w.Genuine e x) (hvalid : w.isValid x.after = true)
    (hf : w.Fanout e x.after hs xs) (hh : x.handle ∉ hs) :
    w.Fanout e x.before (x.handle :: hs) (x :: xs) where
  genuine := by
    intro y hy
    rcases List.mem_cons.mp hy with rfl | hy
    · exact hx
    · exact hf.genuine y hy
  linked := ⟨rfl, hf.linked⟩
  ordered := hf.ordered.cons_cons x.handle
  called_iff := by
    intro pre g post hsplit
    rcases pre with _ | ⟨h', pre⟩
    · obtain ⟨rfl, rfl⟩ := List.cons_eq_cons.mp hsplit
      exact head_called hx _
    · obtain ⟨rfl, htail⟩ := List.cons_eq_cons.mp hsplit
      -- a later handle: its own turns come after the first, which left the context valid
      have hne : g ≠ x.handle := fun he => hh (by simp [htail, he])
      rw [turnsOf_cons_self (hf.not_mem hh), List.forall_mem_cons, List.map_cons, List.mem_cons,
        or_iff_right hne, hf.called_iff pre g post htail, reached]
      exact ⟨fun hr => ⟨⟨hvalid, hr.1⟩, hr.2⟩, fun hr => ⟨hr.1.2, hr.2⟩⟩

/-- A turn that leaves the context invalid is the last one. -/
theorem last {x : Turn σ L} (hx : w.Genuine e x) (hinvalid : w.isValid x.after = false)
    (hh : x.handle ∉ hs) : w.Fanout e x.before (x.handle :: hs) [x] where
  genuine := fun y hy => List.mem_singleton.mp hy ▸ hx
  linked := ⟨rfl, trivial⟩
  ordered := (List.nil_sublist hs).cons_cons x.handle
  called_iff := by
    intro pre g post hsplit
    rcases pre with _ | ⟨h', pre⟩
    · obtain ⟨rfl, rfl⟩ := List.cons_eq_cons.mp hsplit
      exact head_called hx _
    · obtain ⟨rfl, htail⟩ := List.cons_eq_cons.mp hsplit
      -- a later handle gets no turn, and the first turn is why
      have hne : g ≠ x.handle := fun he => hh (by simp [htail, he])
      rw [turnsOf_cons_self List.not_mem_nil]
      refine ⟨fun hm => absurd (List.mem_singleton.mp hm) hne, fun hr => ?_⟩
      have hvalid := hr.1 x List.mem_cons_self
      rw [hinvalid] at hvalid
      exact absurd hvalid Bool.false_ne_true

end Fanout

/-! ### The loop -/

/-- The turn that a listener takes. -/
def turnAt (w : Surroundings σ L) (e : ModuleEvent) (h : Handle) (l : L) (s : σ) : Turn σ L :=
  ⟨h, l, s, (w.turn e l s).1, (w.turn e l s).2⟩

theorem genuine_turnAt {h : Handle} {l : L} {s : σ} (hl : (w.roster s).find? h = some l)
    (hs : w.isValid s = true) : w.Genuine e (w.turnAt e h l s) where
  registered := hl
  isValid_before := hs
  called := by
    show w.turn e l s = _
    rw [turn]
    rfl

/-- The turns that the loop takes for some handles. -/
def taken (w : Surroundings σ L) (e : ModuleEvent) : List Handle → σ → List (Turn σ L)
  | [], _ => []
  | h :: rest, s =>
    match (w.roster s).find? h with
    | none => taken w e rest s
    | some l =>
      let x := w.turnAt e h l s
      x :: if w.isValid x.after then taken w e rest x.after else []

/-- On a valid context, those are a fan-out. -/
theorem taken_fanout {hs : List Handle} (hnodup : hs.Nodup) {s : σ}
    (hvalid : w.isValid s = true) : w.Fanout e s hs (w.taken e hs s) := by
  -- on the handles still to come, from whatever valid state the turns before have led to
  induction hs generalizing s with
  | nil => exact .nil s
  | cons h rest ih =>
    obtain ⟨hh, hrest⟩ := List.nodup_cons.mp hnodup
    rw [taken]
    cases hl : (w.roster s).find? h with
    | none => exact (ih hrest hvalid).skip hh hl
    | some l =>
      have hx := genuine_turnAt (e := e) hl hvalid
      dsimp only
      split
      next hafter => exact .cons hx hafter (ih hrest hafter) hh
      next hafter => exact .last hx (by simpa using hafter) hh

/-- They are all that the loop does, before it settles. -/
theorem turns_eq (e : ModuleEvent) (hs : List Handle) {s : σ} (hvalid : w.isValid s = true) :
    w.turns e hs s =
      ((w.taken e hs s).map Turn.delivery, w.settled (reached s (w.taken e hs s))) := by
  induction hs generalizing s with
  | nil =>
    show ([], s) = ([], w.settled s)
    rw [settled_of_isValid hvalid]
  | cons h rest ih =>
    rw [turns, taken]
    cases hl : (w.roster s).find? h with
    | none => exact ih hvalid
    | some l =>
      dsimp only [turnAt]
      by_cases hafter : w.isValid (w.turn e l s).2 = true
      · rw [if_pos hafter, if_pos hafter, ih hafter]
        rfl
      · -- the turn was the last, and settling after it unlinks the listeners
        rw [if_neg hafter, if_neg hafter, reached, reached, settled, if_neg hafter]
        rfl

/-- On a valid context the loop is a fan-out to its handles. -/
theorem turns_fanout {hs : List Handle} (hnodup : hs.Nodup) (s : σ)
    (hvalid : w.isValid s = true) :
    ∃ xs, w.Fanout e s hs xs ∧
      w.turns e hs s = (xs.map Turn.delivery, w.settled (reached s xs)) :=
  ⟨w.taken e hs s, taken_fanout hnodup hvalid, turns_eq e hs hvalid⟩

/-! ### The roster meanwhile -/

section Roster

variable (law : w.Lawful)
include law

theorem turn_later (e : ModuleEvent) (l : L) (s : σ) :
    (w.roster s).Later (w.roster (w.turn e l s).2) := by
  have hcall := law.call_later l e s
  rw [turn]
  split
  next heq =>
    rw [heq] at hcall
    exact hcall
  next heq =>
    rw [heq] at hcall
    exact hcall.trans (law.report_later _ _)

theorem Genuine.later {x : Turn σ L} (hx : w.Genuine e x) :
    (w.roster x.before).Later (w.roster x.after) := by
  have hafter : x.after = (w.turn e x.listener x.before).2 := congrArg Prod.snd hx.called
  exact hafter ▸ turn_later law e x.listener x.before

/-- All turns begin with a roster that came from the one at the start. -/
theorem Linked.later {xs : List (Turn σ L)} (hgenuine : ∀ x ∈ xs, w.Genuine e x) {s : σ}
    (hlinked : Linked s xs) : ∀ x ∈ xs, (w.roster s).Later (w.roster x.before) := by
  induction xs generalizing s with
  | nil => exact fun x hx => absurd hx List.not_mem_nil
  | cons y ys ih =>
    obtain ⟨rfl, hlinked⟩ := hlinked
    rw [List.forall_mem_cons] at hgenuine ⊢
    refine ⟨.refl, fun x hx => ?_⟩
    exact (Genuine.later law hgenuine.1).trans (ih hgenuine.2 hlinked x hx)

end Roster

/-! ### The dispatch -/

/-- What no log changes is not changed by reading a payload. -/
theorem readPayload_keeps {α : Type} {f : σ → α} (hlog : ∀ l s, f (w.log l s) = f s)
    (extra : Option String) (s : σ) : f (w.readPayload extra s).2 = f s := by
  rw [readPayload]
  dsimp only
  split
  · exact hlog _ s
  · rfl

/-- The state in which the listeners of a dispatch are counted. -/
theorem roster_readPayload (law : w.Lawful) (extra : Option String) (s : σ) :
    w.roster (w.readPayload extra s).2 = w.roster s := readPayload_keeps law.roster_log extra s

theorem isValid_readPayload (hlog : ∀ l s, w.isValid (w.log l s) = w.isValid s)
    (extra : Option String) (s : σ) : w.isValid (w.readPayload extra s).2 = w.isValid s :=
  readPayload_keeps hlog extra s

/-- A dispatch on a valid context is its loop, counted and logged. -/
theorem dispatch_of_isValid {s : σ} (hvalid : w.isValid s = true) (module : String)
    (event extra : Option String) :
    w.dispatch module event extra s =
      let (ds, t) := w.turns ⟨module, event, Json.payload? extra⟩
        (w.roster (w.readPayload extra s).2).handles (w.readPayload extra s).2
      let report := DispatchReport.ofDeliveries ds
      (.ok report, w.log (.eventDispatched w.context module report.delivered report.failed) t) := by
  rw [dispatch, if_neg (not_not_intro hvalid)]
  rfl

theorem dispatch_malformed (law : w.Lawful) {s : σ} (hvalid : w.isValid s = true)
    (module : String) (event : Option String) {extra : Option String} (hextra : extra.isSome)
    (hmalformed : Json.payload? extra = none) :
    w.dispatch module event extra s =
      w.dispatch module event none (w.log .payloadMalformed s) := by
  have hread : w.readPayload extra s = (none, w.log .payloadMalformed s) := by
    rw [readPayload, hmalformed]
    simp [hextra]
  have hnone : w.readPayload none (w.log .payloadMalformed s)
      = (none, w.log .payloadMalformed s) := rfl
  rw [dispatch_of_isValid hvalid, dispatch_of_isValid ((law.isValid_log _ s).trans hvalid), hread,
    hmalformed, hnone]
  rfl

/-- **Who is called.**  Whatever the listeners do, a dispatch on a valid context calls those of
the handles registered at its start that are still registered when their turn comes, in order and
at most once each, until a turn leaves the context invalid; under each handle it calls the
listener that was registered at the start.  All are told the same event; the report counts the
turns and the failures, and a malformed payload makes no difference but an entry in the log. -/
theorem dispatch_fanout (law : w.Lawful) {s : σ} (hroster : Roster.Later {} (w.roster s))
    (hvalid : w.isValid s = true) (module : String) (event extra : Option String) :
    (∃ xs, w.Fanout ⟨module, event, Json.payload? extra⟩ (w.readPayload extra s).2
        (w.roster s).handles xs ∧
      (xs.map (·.handle)).Nodup ∧
      (∀ x ∈ xs, (w.roster s).find? x.handle = some x.listener) ∧
      w.dispatch module event extra s =
        (.ok ⟨xs.length, xs.countP (·.failure.isSome)⟩,
          w.log (.eventDispatched w.context module xs.length (xs.countP (·.failure.isSome)))
            (w.settled (reached (w.readPayload extra s).2 xs)))) ∧
    (extra.isSome → Json.payload? extra = none →
      w.dispatch module event extra s =
        w.dispatch module event none (w.log .payloadMalformed s)) := by
  refine ⟨?_, dispatch_malformed law hvalid module event⟩
  have hsound := hroster.sound Roster.sound_empty
  have hroster' := roster_readPayload law extra s
  obtain ⟨xs, hf, hturns⟩ := turns_fanout (w := w) (e := ⟨module, event, Json.payload? extra⟩)
    hsound.nodup (w.readPayload extra s).2 ((isValid_readPayload law.isValid_log extra s).trans hvalid)
  refine ⟨xs, hf, hf.ordered.nodup hsound.nodup, fun x hx => ?_, ?_⟩
  · -- the handle was given before the dispatch began, so it still names the same listener
    have hlater := Linked.later law hf.genuine hf.linked x hx
    rw [hroster'] at hlater
    have hmem : x.handle ∈ (w.roster s).handles :=
      hf.ordered.subset (List.mem_map_of_mem hx)
    exact hlater.find?_eq (hsound.lt_next _ hmem) (hf.genuine x hx).registered
  · have hreport : DispatchReport.ofDeliveries (xs.map Turn.delivery)
        = ⟨xs.length, xs.countP (·.failure.isSome)⟩ := by
      rw [DispatchReport.ofDeliveries, List.length_map, List.countP_map]
      rfl
    rw [dispatch_of_isValid hvalid, hroster', hturns]
    dsimp only
    rw [hreport]

/-! ### An assembly -/

/-- What a member of an assembly does in its turn. -/
inductive Member where
  | listens
  | objects (message : String)
  | removes (h : Handle)
  | admits (m : Member)
  | closes

structure Assembly where
  roster : Roster Member := {}
  isOpen : Bool := true
  minutes : List String := []

def Member.act : Member → Assembly → Option String × Assembly
  | .listens, a => (none, a)
  | .objects message, a => (some message, a)
  | .removes h, a => (none, { a with roster := (a.roster.unregister h).2 })
  | .admits m, a => (none, { a with roster := (a.roster.register m).2 })
  | .closes, a => (none, { a with isOpen := false })

def assembly : Surroundings Assembly Member where
  context := 7
  isValid := Assembly.isOpen
  roster := Assembly.roster
  setRoster r a := { a with roster := r }
  call m _ := m.act
  report message a := { a with minutes := a.minutes ++ [message] }
  log _ a := a

theorem assembly_lawful : assembly.Lawful where
  roster_log _ _ := rfl
  isValid_log _ _ := rfl
  call_later := by
    intro m _ a
    cases m with
    | listens => exact .refl
    | objects => exact .refl
    | removes h => exact .single (.unregister h a.roster)
    | admits m => exact .single (.register m a.roster)
    | closes => exact .refl
  report_later _ _ := .refl

/-- An assembly of some members. -/
def convened (ms : List Member) : Assembly :=
  { roster := ms.foldl (fun r m => (r.register m).2) {} }

theorem convened_later (ms : List Member) : Roster.Later {} (convened ms).roster := by
  show Roster.Later {} (ms.foldl (fun r m => (r.register m).2) {})
  generalize ({} : Roster Member) = r
  induction ms generalizing r with
  | nil => exact .refl
  | cons m ms ih => exact .head (.register m r) (ih _)

theorem assembly_dispatch_fanout :
    let a := convened [.objects "late", .removes 4, .admits .listens, .listens, .closes, .listens]
    ∃ xs, assembly.Fanout ⟨"m", none, none⟩ a a.roster.handles xs ∧
      xs.length = 4 ∧ xs.countP (·.failure.isSome) = 1 ∧
      (assembly.dispatch "m" none none a).2.minutes = ["late"] := by
  intro a
  have hlater := convened_later
    [.objects "late", .removes 4, .admits .listens, .listens, .closes, .listens]
  obtain ⟨⟨xs, hf, -, -, hxs⟩, -⟩ :=
    dispatch_fanout assembly_lawful (s := a) hlater rfl "m" none none
  have hreport : (assembly.dispatch "m" none none a).1 = .ok ⟨4, 1⟩ := rfl
  rw [hxs] at hreport
  injection hreport with hreport
  injection hreport with hlength hcount
  exact ⟨xs, hf, hlength, hcount, rfl⟩

end Surroundings
end ScriptHost

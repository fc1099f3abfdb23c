/-
What has become visible is not taken back.

Whatever a session performs, it is on the same thread again in the end, and effects have only been
added to those that there were (`grows_perform`).  As long as nobody reports an error, none of the
effects that are added is a report.
-/
import ScriptHost.Proofs.Session.Scripts

namespace ScriptHost.Session

/-- The thread is the same, and effects of a kind have been added. -/
structure Adds (kind : Effect → Prop) (s t : Session) : Prop where
  thread : t.thread = s.thread
  effects : ∃ added : List Effect,
    t.effects.toList = s.effects.toList ++ added ∧ ∀ e ∈ added, kind e

/-- The thread is the same, and effects have been added. -/
abbrev Grows : Session → Session → Prop := Adds fun _ => True

/-- The thread is the same, and no effect has been added that is a report. -/
abbrev Discreet : Session → Session → Prop := Adds fun e => e.isReport = false

namespace Adds

variable {kind : Effect → Prop} {s t u : Session}

theorem of_eq (hthread : t.thread = s.thread) (heffects : t.effects = s.effects) : Adds kind s t :=
  ⟨hthread, [], by rw [heffects, List.append_nil], nofun⟩

theorem refl (s : Session) : Adds kind s s := .of_eq rfl rfl

theorem push {e : Effect} (he : kind e) (s : Session) :
    Adds kind s { s with effects := s.effects.push e } :=
  ⟨rfl, [e], Array.toList_push, by simpa using he⟩

theorem trans (h : Adds kind s t) (h' : Adds kind t u) : Adds kind s u := by
  obtain ⟨hthread, added, heffects, hkind⟩ := h
  obtain ⟨hthread', added', heffects', hkind'⟩ := h'
  refine ⟨hthread'.trans hthread, added ++ added', ?_, fun e he => ?_⟩
  · rw [heffects', heffects, List.append_assoc]
  · rcases List.mem_append.mp he with he | he
    · exact hkind e he
    · exact hkind' e he

theorem logged {i : Nat} {l : Log} (hl : kind (.log l)) (h : Adds kind s t) :
    Adds kind s ((quietOutlet i).log l t) := h.trans (.push hl t)

/-- A call on a queue is logged, or not even that. -/
theorem queue (hkind : ∀ l, (Effect.log l).isReport = false → kind (.log l)) {i : Nat}
    {e : Outlet.Event} (h : (quietOutlet i).Step s e t) : Adds kind s t := by
  cases h with
  | append c =>
    cases hclosed : ((quietOutlet i).queue s).closed with
    | true =>
      rw [Outlet.append_of_closed (quietOutlet i).silent hclosed]
      exact .push (hkind _ rfl) s
    | false =>
      rw [Outlet.silent_append_of_open hclosed]
      exact .logged (hkind _ rfl) (.of_eq rfl rfl)
  | drain =>
    rw [Outlet.drain]
    dsimp only
    split
    · exact .of_eq rfl rfl
    · exact .logged (hkind _ rfl) (.of_eq rfl rfl)
  | setBatching on => exact .of_eq rfl rfl
  | flush =>
    rw [Outlet.silent_flush_snd]
    exact .refl s
  | close => exact .of_eq rfl rfl

theorem dispose (hkind : ∀ l, (Effect.log l).isReport = false → kind (.log l)) (i : Nat)
    (s : Session) : Adds kind s (disposeContext i s).2 := by
  rw [disposeContext_snd]
  dsimp only
  split
  · exact .logged (hkind _ rfl) (.of_eq rfl rfl)
  · exact .refl s

/-- If all effects but reports are of the kind, nothing but a report can add any other. -/
theorem pervasive (hkind : ∀ e : Effect, e.isReport = false → kind e) : Pervasive (Adds kind) where
  trans := .trans
  unseen h := .of_eq (congrArg View.thread h) (congrArg View.effects h)
  elsewhere _ _ h := ⟨rfl, h.effects⟩
  emit e he s := .push (hkind e he) s
  newTimeline _ _ := .of_eq rfl rfl
  timeline _ _ _ := .of_eq rfl rfl
  newQueue _ _ _ _ := .of_eq rfl rfl
  queue _ _ _ _ h := .queue (fun l => hkind (.log l)) h
  newContext _ _ _ _ _ := .of_eq rfl rfl
  dispose := .dispose fun l => hkind (.log l)
  newDispatcher _ _ := .of_eq rfl rfl
  roster _ _ _ _ := .of_eq rfl rfl
  newRuntime _ _ := .of_eq rfl rfl
  runtime _ _ _ _ _ := .of_eq rfl rfl

end Adds

instance : Pervasive Discreet := Adds.pervasive fun _ he => he

instance : Reporting Grows where
  toPervasive := Adds.pervasive fun _ _ => trivial
  report _ _ := .push trivial

/-- **Nothing is taken back.**  Whatever a session performs, the thread is the same in the end, and
the effects that there were are still there. -/
theorem grows_perform (depth : Nat) (step : Step) (s : Session) : Grows s (perform depth step s).2 :=
  along_perform (R := Grows) depth step s

end ScriptHost.Session

/-
What timelines are asked.

Whoever works on a timeline asks one `Request` after the other.  What a timeline answers on its own
is told by `respond`; in a session it is asked by operations that read a clock and a source, and
`consult_spec` says that this makes no difference.
-/
import ScriptHost.Proofs.Timeline.Measuring

namespace ScriptHost

namespace Timeline

/-- What one can ask of a timeline. -/
inductive Request where
  | mark (name : String) (start : Option Binary64)
  | measure (name : String) (start finish : Option String)
  | clear (type : EntryType) (name : Option String)
  | entries
  | named (name : String)
  /-- The entries of a type; a type that there is not has none. -/
  | typed (type : Option EntryType)
  | summary

/-- What a timeline answers. -/
inductive Response where
  | entry (e : Entry)
  | entries (es : List Entry)
  | count (n : Nat)
  | nothing
  | fault (f : Fault)

/-- What a timeline answers at a time, if its source has these entries, and what becomes of it. -/
def respond (now : Binary64) (host : List Entry) (t : Timeline) : Request → Response × Timeline
  | .mark name start => (.entry (t.mark name (start.getD now)).1, (t.mark name (start.getD now)).2)
  | .measure name start finish =>
    match t.measure now host name start finish with
    | .ok (e, t') => (.entry e, t')
    | .error f => (.fault f, t)
  | .clear type name => (.nothing, t.clear type name)
  | .entries => (.entries (t.merged host), t)
  | .named name => (.entries (named name (t.merged host)), t)
  | .typed none => (.entries [], t)
  | .typed (some type) => (.entries (typed type (t.merged host)), t)
  | .summary => (.count (recorded (t.summary now host).1), (t.summary now host).2)

end Timeline

namespace Session

open Timeline (Request Response)

/-! ### The timeline of a session -/

/-- Asks a timeline of a session. -/
def consult (i : Nat) : Request → SessionM Response
  | .mark name start => do return .entry (← markTimeline i name start)
  | .measure name start finish => do
    match ← measureTimeline i name start finish with
    | .ok e => return .entry e
    | .error f => return .fault f
  | .clear type name => do
    clearTimeline i type name
    return .nothing
  | .entries => do return .entries (← mergedEntries i)
  | .named name => do return .entries (Timeline.named name (← mergedEntries i))
  | .typed none => return .entries []
  | .typed (some type) => do return .entries (Timeline.typed type (← mergedEntries i))
  | .summary => do return .count (← summarize i)

/-- The present time of a timeline. -/
def presentTime (s : Session) (i : Nat) : Binary64 := (nowOf i s).1

section Consult

variable {s : Session} {i : Nat} {o : TimelineObject}

theorem modifyTimeline_apply (hi : s.timelines[i]? = some o) (f : Timeline → Timeline) :
    ((modifyTimeline i f s).2.timelines[i]?).map (·.timeline) = some (f o.timeline) := by
  show ((s.timelines.modify i fun o => { o with timeline := f o.timeline })[i]?).map _ = _
  rw [Array.getElem?_modify, if_pos rfl, hi]
  rfl

/-- What a timeline becomes may be told from what it is. -/
theorem modifyTimeline_at (i : Nat) (f : Timeline → Timeline) (s : Session) :
    modifyTimeline i (fun _ => f (s.timelines[i]?.getD default).timeline) s =
      modifyTimeline i f s := by
  refine Prod.ext rfl (congrArg (fun timelines => { s with timelines }) ?_)
  refine Array.ext_getElem? fun j => ?_
  rw [Array.getElem?_modify, Array.getElem?_modify]
  split
  · next h =>
    rw [← h]
    cases s.timelines[i]? <;> rfl
  · rfl

theorem modifyTimeline_self (i : Nat) (s : Session) : modifyTimeline i (fun t => t) s = ((), s) := by
  refine Prod.ext rfl (congrArg (fun timelines => { s with timelines }) ?_)
  refine Array.ext_getElem? fun j => ?_
  rw [Array.getElem?_modify]
  split
  · cases s.timelines[j]? <;> rfl
  · rfl

/-- Asking the source is seen, and nothing else happens. -/
theorem asked_eq (s : Session) (i : Nat) : ∃ effects, s.asked i = { s with effects } := by
  rw [asked]
  split
  · exact ⟨_, rfl⟩
  · exact ⟨_, rfl⟩

theorem lookedUp_eq (s : Session) (i : Nat) (start finish : Option String) :
    ∃ effects, s.lookedUp i start finish = { s with effects } := by
  rw [lookedUp]
  split
  · exact s.asked_eq i
  · exact ⟨_, rfl⟩

theorem tellPhases_eq (i : Nat) (outcomes : List (Phase × Option Fault)) (s : Session) :
    ∃ effects, (tellPhases i outcomes s).2 = { s with effects } := by
  induction outcomes generalizing s with
  | nil => exact ⟨_, rfl⟩
  | cons outcome rest ih =>
    obtain ⟨phase, fault⟩ := outcome
    obtain ⟨effects, heq⟩ := s.asked_eq i
    rw [tellPhases, bind_apply, fetchEntries_apply, heq]
    cases fault with
    | none => exact ih { s with effects }
    | some fault => exact ih { s with effects := effects.push (.log (.summarySkipped phase.measure fault)) }

theorem markTimeline_eq (i : Nat) (name : String) (start : Option Binary64) (s : Session) :
    markTimeline i name start s =
      (((s.timelines[i]?.getD default).timeline.mark name (start.getD (s.presentTime i))).1,
        (modifyTimeline i (fun t => (t.mark name (start.getD (s.presentTime i))).2) s).2) := by
  rw [← modifyTimeline_at]
  rfl

/-- The part of a measure that comes after the source has been asked. -/
theorem measured_snd (i : Nat) (now : Binary64) (host : List Entry) (name : String)
    (start finish : Option String) (s : Session) :
    ((do
      match (← timelineAt i).measure now host name start finish with
      | .ok (entry, t) =>
        modifyTimeline i fun _ => t
        return .ok entry
      | .error fault => return .error fault : SessionM (Except Fault Entry)) s).2 =
      (modifyTimeline i (fun t => (t.respond now host (.measure name start finish)).2) s).2 := by
  have hat : timelineAt i s = ((s.timelines[i]?.getD default).timeline, s) := rfl
  rw [← modifyTimeline_at, bind_apply, hat]
  dsimp only
  rw [Timeline.respond]
  cases (s.timelines[i]?.getD default).timeline.measure now host name start finish with
  | ok outcome => rfl
  | error fault =>
    have hself := modifyTimeline_at i (fun t => t) s
    rw [modifyTimeline_self] at hself
    exact (congrArg Prod.snd hself).symm

/-- A measure asks the source if it has marks to look up. -/
theorem measureTimeline_snd (i : Nat) (name : String) (start finish : Option String)
    (s : Session) : (measureTimeline i name start finish s).2 =
      (modifyTimeline i (fun t => (t.respond (s.presentTime i) (s.sourceEntries i)
        (.measure name start finish)).2) (s.lookedUp i start finish)).2 := by
  rw [measureTimeline, bind_apply, presentTime, nowOf_apply]
  dsimp only
  cases hlooks : Timeline.looksUp start finish with
  | true =>
    rw [lookedUp, if_pos hlooks, if_pos rfl, bind_apply, fetchEntries_apply]
    exact measured_snd i _ _ name start finish _
  | false =>
    rw [lookedUp, if_neg (ne_true_of_eq_false hlooks)]
    refine (measured_snd i _ [] name start finish s).trans ?_
    -- without marks to look up, the entries of the source do not matter
    have hspan : ∀ now host (t : Timeline), t.measure now [] name start finish =
        t.measure now host name start finish := fun now host t => by
      rw [Timeline.measure, Timeline.measure, span_of_not_looksUp _ hlooks,
        span_of_not_looksUp _ hlooks]
    simp only [Timeline.respond, hspan _ (s.sourceEntries i)]

/-- A summary measures the phases, asks the source once for each of them and records the rest. -/
theorem summarize_eq (i : Nat) (s : Session) :
    let summary := (s.timelines[i]?.getD default).timeline.summary (s.presentTime i)
      (s.sourceEntries i)
    summarize i s = (Timeline.recorded summary.1,
      (modifyTimeline i (fun _ => summary.2) (tellPhases i summary.1 s).2).2) := by
  have hhost : ((s.timelines[i]?.getD default).source.bind fun source =>
      s.sources[source]?).getD [] = s.sourceEntries i := by
    rw [sourceEntries]
    cases (s.timelines[i]?.getD default).source <;> rfl
  rw [summarize, get_bind_apply, hhost, bind_apply, presentTime, nowOf_apply]
  rfl

/-- Asking the timeline of a session is asking the timeline, at its present time and with what its
source has. -/
theorem consult_spec (hi : s.timelines[i]? = some o) (q : Request) :
    (consult i q s).1 = (o.timeline.respond (s.presentTime i) (s.sourceEntries i) q).1 ∧
      ((consult i q s).2.timelines[i]?).map (·.timeline) =
        some (o.timeline.respond (s.presentTime i) (s.sourceEntries i) q).2 := by
  have ho : s.timelines[i]?.getD default = o := by rw [hi]; rfl
  have hnow : s.presentTime i = Timeline.milliseconds (s.readClock o.clock) := by
    rw [presentTime, nowOf_apply, ho]
  have hmerged : mergedEntries i s = (o.timeline.merged (s.sourceEntries i), s.asked i) := by
    rw [mergedEntries_spec, ho]
    rfl
  have hasked : ((s.asked i).timelines[i]?).map (·.timeline) = some o.timeline := by
    obtain ⟨effects, heq⟩ := s.asked_eq i
    rw [heq, show ({ s with effects } : Session).timelines = s.timelines from rfl, hi]
    rfl
  cases q with
  | mark name start =>
    rw [consult, bind_apply, markTimeline_eq, ho]
    exact ⟨rfl, modifyTimeline_apply hi fun t => (t.mark name _).2⟩
  | measure name start finish =>
    rw [consult, bind_apply, measureTimeline_eq hi, hnow, Timeline.respond, Timeline.measure]
    have hlooked : (s.lookedUp i start finish).timelines[i]? = some o := by
      rw [lookedUp_timelines, hi]
    cases Timeline.span (Timeline.milliseconds (s.readClock o.clock))
      (o.timeline.merged (s.sourceEntries i)) start finish with
    | error f => exact ⟨rfl, congrArg (Option.map _) hlooked⟩
    | ok x => exact ⟨rfl, modifyTimeline_apply hlooked fun t => t.push _⟩
  | clear type name => exact ⟨rfl, modifyTimeline_apply hi fun t => t.clear type name⟩
  | entries =>
    rw [consult, bind_apply, hmerged]
    exact ⟨rfl, hasked⟩
  | named name =>
    rw [consult, bind_apply, hmerged]
    exact ⟨rfl, hasked⟩
  | typed type =>
    cases type with
    | none => exact ⟨rfl, congrArg (Option.map _) hi⟩
    | some type =>
      rw [consult, bind_apply, hmerged]
      exact ⟨rfl, hasked⟩
  | summary =>
    have hsummary := summarize_eq i s
    rw [ho] at hsummary
    obtain ⟨effects, htold⟩ := tellPhases_eq i
      (o.timeline.summary (s.presentTime i) (s.sourceEntries i)).1 s
    dsimp only at hsummary
    rw [htold] at hsummary
    rw [consult, bind_apply, hsummary, Timeline.respond]
    exact ⟨rfl, modifyTimeline_apply (s := { s with effects }) hi fun _ => _⟩

end Consult

end Session
end ScriptHost

/-
The summary of the start-up.

A summary measures phase after phase, and each measure it takes is recorded before the next phase
looks its marks up.  That makes no difference: the measures are not called like any mark of a
phase, so every mark name stands for the same entry throughout, whether the host has entries or
not.  Hence the summary can be told from the entries before it, phase by phase.

* `find?_merge_append` — recording entries of other names leaves the first entry of a name alone;
* `Phase.Measured` — what the measure of a phase is, and `Phase.measured_eq_some_iff` that the
  phases are measured so;
* `measurePhase_eq` — one phase, and `measured_append` — what it leaves to the next ones;
* `measurePhases_eq` — any number of phases one after the other;
* `summaryBy_spec` — what a summary answers and records.
-/
import ScriptHost.Proofs.Timeline.Measuring

namespace ScriptHost

namespace Phase

/-- The measure of a phase at a time.  There is one if both marks have an entry, and it lasts from
the first entry of the start mark to the first one of the end mark. -/
def measured (entries : List Entry) (now : Binary64) (p : Phase) : Option Entry := do
  let start ← entries.find? (·.name = p.start)
  let finish ← entries.find? (·.name = p.finish)
  return .measure p.measure now (finish.start.sub start.start)

/-- This is the measure of the phase at that time: it lasts from the first entry of the start mark
to the first one of the end mark. -/
structure Measured (p : Phase) (entries : List Entry) (now : Binary64) (e : Entry) : Prop where
  name : e.name = p.measure
  type : e.type = .measure
  start : e.start = now
  duration : ∃ s f, entries.find? (·.name = p.start) = some s ∧
    entries.find? (·.name = p.finish) = some f ∧ Binary64.Difference f.start s.start e.duration

theorem marks_ne_empty : ∀ p ∈ all, p.start ≠ "" ∧ p.finish ≠ "" := by decide

/-- No measure is called like a mark. -/
theorem measure_ne_mark : ∀ p ∈ all, ∀ q ∈ all, p.measure ≠ q.start ∧ p.measure ≠ q.finish := by
  decide

variable {p : Phase} {entries : List Entry} {now : Binary64} {e : Entry}

theorem measured_eq_some_iff : p.measured entries now = some e ↔ p.Measured entries now e := by
  rw [measured]
  constructor
  · intro h
    obtain ⟨s, hs, h⟩ := Option.bind_eq_some_iff.mp h
    obtain ⟨f, hf, h⟩ := Option.bind_eq_some_iff.mp h
    rw [← Option.some.inj h]
    exact ⟨rfl, rfl, rfl, s, f, hs, hf, Binary64.difference_sub _ _⟩
  · rintro ⟨hname, htype, hstart, s, f, hs, hf, hduration⟩
    obtain ⟨name, type, start, duration⟩ := e
    dsimp only at hname htype hstart hduration
    rw [hs, hf, hname, htype, hstart, Binary64.difference_iff.mp hduration]
    rfl

theorem isSome_measured : (p.measured entries now).isSome =
    decide (p.start ∈ entries.map (·.name) ∧ p.finish ∈ entries.map (·.name)) := by
  have hfound : ∀ name, (entries.find? (·.name = name)).isSome =
      decide (name ∈ entries.map (·.name)) := by
    intro name
    rw [Bool.eq_iff_iff, List.find?_isSome, decide_eq_true_iff, List.mem_map]
    simp only [decide_eq_true_eq]
  rw [Bool.decide_and, ← hfound, ← hfound, measured]
  cases entries.find? (·.name = p.start) with
  | none => rfl
  | some start => cases entries.find? (·.name = p.finish) <;> rfl

end Phase

namespace Timeline

variable {host own new : List Entry} {mark : String} {t : Timeline} {now : Binary64}

/-! ### Recording under other names -/

/-- A name stands for the same entry when entries of other names are recorded. -/
theorem StandsFor.append {e : Entry} (h : StandsFor host own mark e)
    (hnew : ∀ d ∈ new, d.name ≠ mark) : StandsFor host (own ++ new) mark e := by
  cases h with
  | @recorded hhost hname before after hown hbefore =>
    have hown' : own ++ new = before ++ e :: (after ++ new) := by
      rw [hown, List.append_assoc, List.cons_append]
    exact .recorded hhost hname hown' hbefore
  | @least hhost hname before after hall hbefore hafter =>
    have hall' : host ++ (own ++ new) = before ++ e :: (after ++ new) := by
      rw [← List.append_assoc, hall, List.append_assoc, List.cons_append]
    refine .least hhost hname hall' hbefore fun d hd hd' => ?_
    rcases List.mem_append.mp hd with hd | hd
    · exact hafter d hd hd'
    · exact absurd hd' (hnew d hd)

/-- And so the first entry of the name is the same. -/
theorem find?_merge_append (hnew : ∀ d ∈ new, d.name ≠ mark) :
    (merge host (own ++ new)).find? (·.name = mark) = (merge host own).find? (·.name = mark) := by
  cases hfind : (merge host own).find? (·.name = mark) with
  | some e =>
    have hstands := (standsFor_of_find hfind).append hnew
    obtain ⟨d, hd, hname⟩ := hstands.known
    obtain ⟨d', hfind'⟩ : ∃ d', (merge host (own ++ new)).find? (·.name = mark) = some d' :=
      Option.isSome_iff_exists.mp <| List.find?_isSome.mpr
        ⟨d, mem_merge.mpr hd, decide_eq_true hname⟩
    rw [hfind', (standsFor_of_find hfind').unique hstands]
  | none =>
    rw [List.find?_eq_none] at hfind ⊢
    intro d hd
    rcases List.mem_append.mp (List.append_assoc .. ▸ mem_merge.mp hd) with hd | hd
    · exact hfind d (mem_merge.mpr hd)
    · simpa using hnew d hd

/-! ### One phase after the other -/

/-- The timeline has recorded these entries in addition. -/
def append (t : Timeline) (new : List Entry) : Timeline := { t with entries := t.entries ++ new }

theorem append_nil (t : Timeline) : t.append [] = t := by
  rw [append, List.append_nil]

theorem append_append (t : Timeline) (new new' : List Entry) :
    (t.append new).append new' = t.append (new ++ new') := by
  rw [append, append, append, List.append_assoc]

theorem span_between {entries : List Entry} {start finish : String} (hstart : start ≠ "")
    (hfinish : finish ≠ "") : span now entries (some start) (some finish) = do
      let s ← timeOf entries start
      let f ← timeOf entries finish
      return f.sub s := by
  rw [span, givenMark_of_given ⟨rfl, hstart⟩, givenMark_of_given ⟨rfl, hfinish⟩,
    Option.mapM_some, Option.mapM_some]
  cases timeOf entries start with
  | error fault => rfl
  | ok s => cases timeOf entries finish <;> rfl

variable (host t now) in
/-- A phase is measured exactly if both of its marks have entries. -/
theorem measurePhase_eq {p : Phase} (hp : p ∈ Phase.all) :
    (t.measurePhase now host p).1.isNone = (p.measured (t.merged host) now).isSome ∧
      (t.measurePhase now host p).2 = t.append (p.measured (t.merged host) now).toList := by
  obtain ⟨hstart, hfinish⟩ := Phase.marks_ne_empty p hp
  rw [measurePhase, measure, span_between hstart hfinish, Phase.measured, timeOf, timeOf]
  cases (t.merged host).find? (·.name = p.start) with
  | none => exact ⟨rfl, (append_nil t).symm⟩
  | some s =>
    cases (t.merged host).find? (·.name = p.finish) with
    | none => exact ⟨rfl, (append_nil t).symm⟩
    | some f => exact ⟨rfl, rfl⟩

/-- A measure that has been recorded makes no difference to any phase. -/
theorem measured_append {p q : Phase} (hp : p ∈ Phase.all) (hq : q ∈ Phase.all)
    (hnew : ∀ d ∈ new, d.name = p.measure) (now : Binary64) :
    q.measured ((t.append new).merged host) now = q.measured (t.merged host) now := by
  obtain ⟨hstart, hfinish⟩ := Phase.measure_ne_mark p hp q hq
  have hfirst : ∀ name, p.measure ≠ name → ((t.append new).merged host).find? (·.name = name) =
      (t.merged host).find? (·.name = name) := fun name hne =>
    find?_merge_append fun d hd => (hnew d hd).trans_ne hne
  rw [Phase.measured, Phase.measured, hfirst _ hstart, hfirst _ hfinish]

theorem recorded_cons (p : Phase) (fault : Option Fault) (outcomes : List (Phase × Option Fault)) :
    recorded ((p, fault) :: outcomes) = recorded outcomes + if fault.isNone then 1 else 0 :=
  List.countP_cons

/-- Phases that are measured one after the other are measured as if each were the first.  The
invariant is that all phases still come out as by the entries in the beginning. -/
theorem measurePhases_eq {phases : List (Phase × Binary64)} (hphases : ∀ x ∈ phases, x.1 ∈ Phase.all)
    {entries : List Entry}
    (hsame : ∀ p ∈ Phase.all, ∀ now, p.measured (t.merged host) now = p.measured entries now) :
    recorded (measurePhases host phases t).1 =
        phases.countP (fun x => (x.1.measured entries x.2).isSome) ∧
      (measurePhases host phases t).2 =
        t.append (phases.filterMap fun x => x.1.measured entries x.2) := by
  induction phases generalizing t with
  | nil => exact ⟨rfl, (append_nil t).symm⟩
  | cons x rest ih =>
    obtain ⟨p, now⟩ := x
    rw [List.forall_mem_cons] at hphases
    obtain ⟨hp, hrest⟩ := hphases
    obtain ⟨hfault, htimeline⟩ := measurePhase_eq host t now hp
    rw [hsame p hp] at hfault htimeline
    -- what the first phase has recorded changes nothing for the others
    have hsame' : ∀ q ∈ Phase.all, ∀ now', q.measured
        ((t.append (p.measured entries now).toList).merged host) now' = q.measured entries now' := by
      intro q hq now'
      have hnamed : ∀ d ∈ (p.measured entries now).toList, d.name = p.measure := fun d hd =>
        (Phase.measured_eq_some_iff.mp (Option.mem_toList.mp hd)).name
      rw [measured_append hp hq hnamed, hsame q hq]
    obtain ⟨hcount, hrecorded⟩ := ih hrest hsame'
    rw [measurePhases]
    generalize t.measurePhase now host p = r at hfault htimeline ⊢
    obtain ⟨fault, t'⟩ := r
    dsimp only at hfault htimeline ⊢
    subst htimeline
    refine ⟨?_, ?_⟩
    · rw [recorded_cons, List.countP_cons, hcount, hfault]
    · rw [hrecorded, append_append, List.filterMap_cons]
      cases p.measured entries now <;> rfl

/-! ### The summary -/

/-- What a filter with a result gives, next to the elements for which it gives something. -/
theorem forall₂_filterMap {α β : Type} (f : α → Option β) (l : List α) :
    List.Forall₂ (fun a b => f a = some b) (l.filter fun a => (f a).isSome) (l.filterMap f) := by
  induction l with
  | nil => exact .nil
  | cons a l ih =>
    cases ha : f a with
    | none =>
      rw [List.filter_cons_of_neg (by simp [ha]), List.filterMap_cons_none ha]
      exact ih
    | some b =>
      rw [List.filter_cons_of_pos (by simp [ha]), List.filterMap_cons_some ha]
      exact .cons ha ih

/-- **Summaries.**  Let the merged entries be as they are before the summary.  Then it answers how
many phases have an entry for both of their marks, and records one measure for each of these, in
the order of the phases: under the name of the phase, at the time the clock reads when its turn
comes, and lasting from the first entry of the start mark to the first one of the end mark.
Nothing else about the timeline changes. -/
theorem summaryBy_spec (t : Timeline) (readings : Nat → Binary64) (host : List Entry) :
    let entries := t.merged host
    let names := entries.map (·.name)
    recorded (t.summaryBy readings host).1 =
        Phase.all.countP (fun p => p.start ∈ names ∧ p.finish ∈ names) ∧
      ∃ new, (t.summaryBy readings host).2 = { t with entries := t.entries ++ new } ∧
        List.Forall₂ (fun x e => x.1.Measured entries (readings x.2) e)
          (Phase.all.zipIdx.filter fun x => x.1.start ∈ names ∧ x.1.finish ∈ names) new := by
  intro entries names
  have hphases : ∀ x ∈ Phase.timed readings, x.1 ∈ Phase.all := by
    intro x hx
    obtain ⟨⟨p, n⟩, hp, rfl⟩ := List.mem_map.mp hx
    exact List.fst_mem_of_mem_zipIdx hp
  have hsame : ∀ p ∈ Phase.all, ∀ now,
      p.measured (t.merged host) now = p.measured entries now := fun _ _ _ => rfl
  obtain ⟨hcount, hrecorded⟩ := measurePhases_eq hphases hsame
  refine ⟨?_, Phase.all.zipIdx.filterMap fun x => x.1.measured entries (readings x.2), ?_, ?_⟩
  · rw [summaryBy, hcount]
    simp only [Phase.isSome_measured]
    have hall : Phase.all.zipIdx.map Prod.fst = Phase.all := List.zipIdx_map_fst 0 Phase.all
    rw [← congrArg (List.countP _) hall, Phase.timed, List.countP_map, List.countP_map]
    rfl
  · rw [summaryBy, hrecorded, Phase.timed, List.filterMap_map]
    rfl
  · have hmeasured := forall₂_filterMap (fun x : Phase × Nat => x.1.measured entries (readings x.2))
      Phase.all.zipIdx
    simp only [Phase.isSome_measured] at hmeasured
    exact hmeasured.imp fun x e => Phase.measured_eq_some_iff.mp

/-- One phase is measured, and one is left out as it has not ended. -/
example :
    let t : Timeline := { context := 1, origin := .zero, entries :=
      [.mark "bridge_init_start" (.ofNat 2), .mark Phase.contextStart (.ofNat 4),
        .mark "bridge_init_end" (.ofNat 7)] }
    recorded (t.summaryBy (fun n => .ofNat (10 + n)) []).1 = 1 ∧
      (t.summaryBy (fun n => .ofNat (10 + n)) []).2.entries =
        t.entries ++ [.measure "bridge_init_cost" (.ofNat 10) (.ofNat 5)] := by decide +kernel

end Timeline
end ScriptHost

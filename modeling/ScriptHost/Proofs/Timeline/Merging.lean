/-
What a timeline shows.

The own entries of a timeline are shown in the order of recording, as long as its timing source
has none; otherwise all entries are shown in the total order of their start times.  The order is
stable, so among entries of the same time those of the source come first.

* `filter_mergeSort` — sorting leaves alone the order of what is not ordered;
* `merge_perm`, `merge_pairwise`, `merge_filter_start` — what `merge` is, if the source has entries;
* `mergedEntries_spec` — a look at the entries asks the source once and changes nothing else;
* `timeline_shows` — what the three queries answer.
-/
import ScriptHost.Proofs.Binary64.TotalOrder
import ScriptHost.Proofs.Session.Moves

namespace ScriptHost

namespace Timeline

/-! ### Sorting -/

/-- Elements of which none comes before another stay in the order in which they were. -/
theorem filter_mergeSort {α : Type} {le : α → α → Bool}
    (htrans : ∀ a b c, le a b = true → le b c = true → le a c = true)
    (htotal : ∀ a b, (le a b || le b a) = true) {p : α → Bool}
    (htied : ∀ a b, p a = true → p b = true → le a b = true) (l : List α) :
    (l.mergeSort le).filter p = l.filter p := by
  have htied' : (l.filter p).Pairwise fun a b => le a b = true := by
    refine List.pairwise_of_forall_mem_list fun a ha b hb => ?_
    exact htied a b (List.mem_filter.mp ha).2 (List.mem_filter.mp hb).2
  -- a sorted part of a list is found in the sorted list, and here it is all that there is
  have hsub := (List.sublist_mergeSort htrans htotal htied' List.filter_sublist).filter p
  rw [List.filter_filter, List.filter_congr (q := p) fun a _ => Bool.and_self (p a)] at hsub
  have hlength := ((List.mergeSort_perm l le).filter p).length_eq
  exact (hsub.eq_of_length hlength.symm).symm

/-! ### Merging -/

/-- The first entry starts no later than the second, in the total order. -/
def startLe (a b : Entry) : Bool := a.start.totalLe b.start

theorem startLe_trans (a b c : Entry) (h : startLe a b = true) (h' : startLe b c = true) :
    startLe a c = true := Binary64.totalLe_trans h h'

theorem startLe_total (a b : Entry) : (startLe a b || startLe b a) = true :=
  Binary64.totalLe_total a.start b.start

section Merge

variable {host own : List Entry} (hhost : host ≠ [])
include hhost

theorem merge_of_ne_nil : merge host own = (host ++ own).mergeSort startLe := if_neg hhost

theorem merge_perm : (merge host own).Perm (host ++ own) := by
  rw [merge_of_ne_nil hhost]
  exact List.mergeSort_perm _ _

theorem merge_pairwise :
    (merge host own).Pairwise fun a b => Binary64.TotalOrder a.start b.start := by
  rw [merge_of_ne_nil hhost]
  have hsorted := List.pairwise_mergeSort startLe_trans startLe_total (host ++ own)
  exact hsorted.imp fun h => Binary64.totalLe_iff.mp h

/-- Of the entries of one start time, those of the source come first, each kind in its order. -/
theorem merge_filter_start (x : Binary64) :
    (merge host own).filter (·.start = x) =
      host.filter (·.start = x) ++ own.filter (·.start = x) := by
  rw [merge_of_ne_nil hhost, ← List.filter_append]
  refine filter_mergeSort startLe_trans startLe_total (fun a b ha hb => ?_) _
  rw [decide_eq_true_eq] at ha hb
  rw [startLe, ha, hb]
  exact Binary64.totalLe_iff.mpr (.same rfl)

end Merge

/-- Every entry is a mark or a measure, and not both. -/
theorem typed_perm (entries : List Entry) :
    (typed .mark entries ++ typed .measure entries).Perm entries := by
  have hmeasure : typed .measure entries = entries.filter fun e => !decide (e.type = .mark) := by
    refine List.filter_congr fun e _ => ?_
    cases e.type <;> rfl
  rw [hmeasure]
  exact List.filter_append_perm _ entries

end Timeline

namespace Session

/-! ### Asking the source -/

/-- The entries that the timing source of a timeline has at the moment. -/
def sourceEntries (s : Session) (i : Nat) : List Entry :=
  match (s.timelines[i]?.getD default).source with
  | none => []
  | some source => s.sources[source]?.getD []

/-- The timing source of a timeline has been asked once, if there is one. -/
def asked (s : Session) (i : Nat) : Session :=
  match (s.timelines[i]?.getD default).source with
  | none => s
  | some _ =>
    { s with
      effects := s.effects.push (.fetch (s.timelines[i]?.getD default).timeline.context) }

theorem fetchEntries_apply (i : Nat) (s : Session) :
    fetchEntries i s = (s.sourceEntries i, s.asked i) := by
  rw [fetchEntries, get_bind_apply, sourceEntries, asked]
  cases (s.timelines[i]?.getD default).source <;> rfl

/-- A look at the entries asks the source once, and that is all it does. -/
theorem mergedEntries_spec (i : Nat) (s : Session) :
    mergedEntries i s =
      (Timeline.merge (s.sourceEntries i) (s.timelines[i]?.getD default).timeline.entries,
        s.asked i) := by
  have htimelines : (s.asked i).timelines = s.timelines := by
    rw [asked]
    split <;> rfl
  rw [mergedEntries, bind_apply, fetchEntries_apply]
  show (Timeline.merge _ (((s.asked i).timelines[i]?.getD default).timeline.entries), _) = _
  rw [htimelines]

theorem ofName?_name (type : EntryType) : EntryType.ofName? type.name = some type := by
  cases type <;> decide

/-- **What a timeline shows.**  The queries ask the timing source once and do nothing else.  They
show the own entries in the order of recording, if the source has none; otherwise all entries of
both, in the total order of their start times, and among those of one start time first the entries
of the source and then the own ones, both in their order.  A query by name or by type shows exactly
the entries of that name or type, in the same order, and every entry is of one type. -/
theorem timeline_shows {s : Session} {on : String} {i : Nat} (hon : s.timeline? on = some i) :
    let host := s.sourceEntries i
    let own := (s.timelines[i]?.getD default).timeline.entries
    ∃ entries, mergedEntries i s = (entries, s.asked i) ∧
      performTimeline (.entries on) s = (.of (shownEntries entries), s.asked i) ∧
      (∀ name, performTimeline (.named on name) s =
        (.of (shownEntries (entries.filter (·.name = name))), s.asked i)) ∧
      (∀ type : EntryType, performTimeline (.typed on type.name) s =
        (.of (shownEntries (entries.filter (·.type = type))), s.asked i)) ∧
      (host = [] → entries = own) ∧
      (host ≠ [] → entries.Perm (host ++ own) ∧
        entries.Pairwise (fun a b => Binary64.TotalOrder a.start b.start) ∧
        ∀ x, entries.filter (·.start = x) =
          host.filter (·.start = x) ++ own.filter (·.start = x)) ∧
      (entries.filter (·.type = .mark) ++ entries.filter (·.type = .measure)).Perm entries := by
  have hmerged := mergedEntries_spec i s
  dsimp only
  refine ⟨Timeline.merge (s.sourceEntries i) (s.timelines[i]?.getD default).timeline.entries,
    hmerged, ?_, fun name => ?_, fun type => ?_, fun hhost => ?_, fun hhost => ?_,
    Timeline.typed_perm _⟩
  · rw [performTimeline, withObject_of_some hon, bind_apply, hmerged]
    rfl
  · rw [performTimeline, withObject_of_some hon, bind_apply, hmerged]
    rfl
  · rw [performTimeline, withObject_of_some hon, ofName?_name]
    dsimp only
    rw [bind_apply, hmerged]
    rfl
  · rw [hhost]
    exact Timeline.merge_nil _
  · exact ⟨Timeline.merge_perm hhost, Timeline.merge_pairwise hhost,
      Timeline.merge_filter_start hhost⟩

/-- A timeline with two marks, and a source with a NaN and a mark at zero. -/
def sampleTimelines : Session where
  sources := #[[.mark "late" .nan, .mark "zero" .zero]]
  timelines := #[{
    timeline := { context := 1, origin := .zero,
                  entries := [.mark "own" .zero, .mark "before" .negativeZero] }
    clock := .system 0
    source := some 0 }]
  objects := [("t", .timeline 0)]

theorem sampleTimelines_shows :
    ∃ entries, performTimeline (.entries "t") sampleTimelines =
        (.of (shownEntries entries), sampleTimelines.asked 0) ∧
      entries.length = 4 ∧
      entries.filter (·.start = .zero) = [.mark "zero" .zero, .mark "own" .zero] := by
  obtain ⟨entries, -, hshown, -, -, -, hmerged, -⟩ :=
    timeline_shows (s := sampleTimelines) (i := 0) (rfl : sampleTimelines.timeline? "t" = some 0)
  obtain ⟨hperm, -, hzero⟩ := hmerged (List.cons_ne_nil _ _)
  exact ⟨entries, hshown, hperm.length_eq, (hzero .zero).trans (by decide)⟩

end Session
end ScriptHost

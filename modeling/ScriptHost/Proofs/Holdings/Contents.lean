/-
What a table contains.

Looking a text up, counting the live atoms of a table and asking an atom for its holders are three
views of one heap.  `Accounted` says that they agree with the places that hold atoms: an atom has
as many holders as it has places, a text is contained exactly if a place holds an atom of it, and
the size of a table is the number of different texts that it contains.
-/
import ScriptHost.Proofs.Holdings.Accounts

namespace ScriptHost.Atom.Heap

variable {h : Heap} {t : TableId} {x : String}

theorem contains_iff : h.contains t x = true ↔ ∃ a, h.Is a t x ∧ h.holders a ≠ 0 := by
  constructor
  · intro hc
    obtain ⟨a, ha⟩ := Option.isSome_iff_exists.mp hc
    exact ⟨a, find?_eq_some ha⟩
  · rintro ⟨a, hi, ha⟩
    rw [contains]
    cases hf : h.find? t x with
    | none => exact absurd (find?_eq_none hf hi) ha
    | some b => rfl

/-- The texts of the live atoms of a table, in the order of their cells. -/
def texts (h : Heap) (t : TableId) : List String :=
  (h.cells.toList.filter fun c => c.table = t ∧ c.isLive).map Cell.text

theorem length_texts (h : Heap) (t : TableId) : (h.texts t).length = h.live t := by
  rw [texts, List.length_map, ← List.countP_eq_length_filter, Array.countP_toList, live]

theorem mem_texts_iff : x ∈ h.texts t ↔ h.contains t x = true := by
  rw [contains_iff, texts, List.mem_map]
  constructor
  · rintro ⟨c, hc, rfl⟩
    obtain ⟨hmem, hfor⟩ := List.mem_filter.mp hc
    obtain ⟨htable, hlive⟩ : c.table = t ∧ c.holders ≠ 0 := by simpa [Cell.isLive] using hfor
    obtain ⟨i, hi, rfl⟩ := Array.mem_iff_getElem.mp (Array.mem_toList_iff.mp hmem)
    refine ⟨⟨i⟩, ⟨h.cells[i], Array.getElem?_eq_getElem hi, htable, rfl⟩, ?_⟩
    rw [holders, Array.getElem?_eq_getElem hi]
    exact hlive
  · rintro ⟨a, ⟨c, hc, htable, htext⟩, hlive⟩
    rw [holders, hc] at hlive
    have hmem := Array.mem_toList_iff.mpr (Array.mem_of_getElem? hc)
    exact ⟨c, List.mem_filter.mpr ⟨hmem, by simpa [Cell.isLive, htable] using hlive⟩, htext⟩

/-- No text has two live atoms in a table, so none is counted twice. -/
theorem Unique.nodup_texts (hu : h.Unique) (t : TableId) : (h.texts t).Nodup := by
  -- of two live cells of the table, the one in front and the one behind have different texts
  have hcells : h.cells.toList.Pairwise fun c d =>
      c.table = t → c.isLive = true → d.table = t → d.isLive = true → c.text ≠ d.text := by
    rw [List.pairwise_iff_getElem]
    intro i j hi hj hij hct hcl hdt hdl htext
    simp only [Array.length_toList] at hi hj
    simp only [Array.getElem_toList] at hct hcl hdt hdl htext
    have hci := Array.getElem?_eq_getElem hi
    have hcj := Array.getElem?_eq_getElem hj
    have hsame : (⟨i⟩ : Atom) = ⟨j⟩ := by
      refine hu ⟨i⟩ ⟨j⟩ t h.cells[i].text ⟨_, hci, hct, rfl⟩ ⟨_, hcj, hdt, htext.symm⟩ ?_ ?_
      · rw [holders, hci]
        simpa [Cell.isLive] using hcl
      · rw [holders, hcj]
        simpa [Cell.isLive] using hdl
    exact Nat.ne_of_lt hij (congrArg Atom.place hsame)
  rw [texts, List.Nodup, List.pairwise_map]
  refine (hcells.filter _).imp_of_mem fun hc hd hne => ?_
  have hc' := (List.mem_filter.mp hc).2
  have hd' := (List.mem_filter.mp hd).2
  simp only [decide_eq_true_eq] at hc' hd'
  exact hne hc'.1 hc'.2 hd'.1 hd'.2

end ScriptHost.Atom.Heap

namespace ScriptHost.Holdings

variable {s : Holdings}

/-- Counts, lookups and sizes agree with the places that hold atoms. -/
structure Accounted (s : Holdings) : Prop where
  /-- The holders of an atom: a table by its empty atom and by every occurrence of a pinned name,
  a cache by every entry, a declaration by every occurrence as a name or a value, the handles, and
  the hand of the operations under way. -/
  holders : ∀ a, s.heap.holders a = (slots Atom.Table.atoms s.tables).count a +
    (slots (List.map (·.2)) s.caches).count a + (slots Style.Properties.atoms s.styles).count a +
    (s.handles.map (·.2)).count a + s.hand.count a
  contains : ∀ t x, s.heap.contains t x = true ↔ ∃ a, s.heap.Is a t x ∧ a ∈ s.held
  /-- The size of a table is the number of different texts that it contains. -/
  size : ∀ t, ∃ texts : List String, texts.Nodup ∧
    (∀ x, x ∈ texts ↔ s.heap.contains t x = true) ∧ s.heap.live t = texts.length

theorem Sound.accounted (hs : s.Sound) : s.Accounted where
  holders a := (hs.counted a).trans (count_held s a)
  contains t x := by
    rw [Atom.Heap.contains_iff]
    refine exists_congr fun a => and_congr_right fun _ => ?_
    rw [hs.counted, Nat.ne_zero_iff_zero_lt, List.count_pos_iff]
  size t := ⟨s.heap.texts t, hs.unique.nodup_texts t, fun _ => Atom.Heap.mem_texts_iff,
    (Atom.Heap.length_texts s.heap t).symm⟩

end ScriptHost.Holdings

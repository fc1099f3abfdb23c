/-
Which handles are the same atom.

`Deed` lists what can be done with tables and with the handles of their atoms, and a `Ledger`
notes for every handle what it was interned as; it is kept from the deeds alone, without a look at
the heap.  `Tracks` says that the heap agrees with the ledger: the handles that are there are the
noted ones, and each stands for an atom of the noted table and text.

* `Tracks.deed` — every deed keeps the ledger and the heap in step;
* `handles_identity` — after any deeds, handles of one table are equal exactly if their texts are,
  and handles of two tables never are.

Design notes: a handle holds its atom, so the atom is live, and a text has one live atom in a
table (`Heap.Unique`).  This takes care of reclaimed texts: a text whose last handle was dropped is
interned into a new cell, but then no handle is left of the old one.  Nothing here needs the table
of a handle to be there still.
-/
import ScriptHost.Proofs.Holdings.Accounts
import Mathlib.Logic.Function.Basic

namespace ScriptHost.Holdings

variable {s : Holdings}

/-! ### Handles by name -/

theorem lookup_filter_ne {β : Type} (ps : List (String × β)) (name other : String) :
    (ps.filter (·.1 ≠ name)).lookup other = if other = name then none else ps.lookup other := by
  induction ps with
  | nil => simp
  | cons p rest ih =>
    obtain ⟨n, v⟩ := p
    by_cases hn : n = name
    · -- this entry is filtered out, and a lookup of another name passes it
      subst hn
      rw [List.filter_cons_of_neg (by simp), ih, List.lookup_cons]
      by_cases ho : other = n
      · rw [if_pos ho, if_pos ho]
      · rw [if_neg ho, if_neg ho, beq_false_of_ne ho]
    · rw [List.filter_cons_of_pos (by simpa using hn), List.lookup_cons, List.lookup_cons, ih]
      by_cases ho : other = n
      · subst ho
        simp [hn]
      · rw [beq_false_of_ne ho]

theorem handle?_dropHandle (s : Holdings) (name other : String) :
    (s.dropHandle name).handle? other = if other = name then none else s.handle? other := by
  rw [dropHandle]
  split
  next a ha => exact lookup_filter_ne s.handles name other
  next hnone =>
    by_cases ho : other = name
    · rw [if_pos ho, ho, hnone]
    · rw [if_neg ho]

theorem handle?_keep (s : Holdings) (name : String) (a : Atom) (other : String) :
    (s.keep name a).handle? other = if other = name then some a else s.handle? other := by
  have hdrop := handle?_dropHandle s name other
  show ((name, a) :: (s.dropHandle name).handles).lookup other = _
  rw [List.lookup_cons]
  by_cases ho : other = name
  · simp [ho]
  · rw [beq_false_of_ne ho, if_neg ho]
    rwa [if_neg ho] at hdrop

theorem mem_held_of_handle {name : String} {a : Atom} (ha : s.handle? name = some a) :
    a ∈ s.held := by
  simp only [held, List.mem_append]
  exact Or.inl (Or.inr (List.mem_map.mpr ⟨(name, a), mem_of_lookup ha, rfl⟩))

theorem handle?_dropTable (s : Holdings) (t : TableId) (name : String) :
    (s.dropTable t).handle? name = s.handle? name := by
  rw [dropTable]
  split <;> rfl

theorem handle?_takeEmpty (s : Holdings) (t : TableId) (name : String) :
    (s.takeEmpty t).2.handle? name = s.handle? name := by
  rw [takeEmpty]
  split <;> rfl

/-! ### Deeds -/

/-- Takes the atom of a text, or the empty atom if there is none. -/
def takeText (s : Holdings) (t : TableId) : Option String → Atom × Holdings
  | some x => s.take t x
  | none => s.takeEmpty t

/-- Keeps an atom of the hand under a name, or lets it go. -/
def settle (s : Holdings) : Option String → Atom → Holdings
  | some name, a => s.keep name a
  | none, a => s.letGo a

/-- What can be done with tables and the handles of their atoms.  Releasing a handle through a
table, whichever that is, is dropping it. -/
inductive Deed where
  | newTable (pinned : List String)
  /-- Interns a text, or takes the empty atom if there is none. -/
  | intern (t : TableId) (text : Option String) (keep : Option String)
  | clone (handle keep : String)
  | drop (handle : String)
  | dropTable (t : TableId)

/-- What handles were interned as: the table and the text, by name. -/
abbrev Ledger := String → Option (TableId × String)

namespace Deed

def apply : Deed → Holdings → Holdings
  | .newTable pinned, s => (s.newTable pinned).2
  | .intern t text keep, s => (s.takeText t text).2.settle keep (s.takeText t text).1
  | .clone handle keep, s =>
    match s.handle? handle with
    | some a => (s.grab a).keep keep a
    | none => s
  | .drop handle, s => s.dropHandle handle
  | .dropTable t, s => s.dropTable t

/-- Notes a deed. -/
def note : Deed → Ledger → Ledger
  | .intern t text (some name), l => Function.update l name (some (t, text.getD ""))
  | .clone handle keep, l => if (l handle).isSome then Function.update l keep (l handle) else l
  | .drop handle, l => Function.update l handle none
  | _, l => l

end Deed

/-- Does one deed after the other. -/
def afterDeeds (deeds : List Deed) : Holdings := deeds.foldl (fun s d => d.apply s) {}

/-- What was noted of the deeds. -/
def noted (deeds : List Deed) : Ledger := deeds.foldl (fun l d => d.note l) fun _ => none

/-! ### Keeping the ledger -/

/-- The handles that are there are the noted ones, and they stand for what was noted. -/
structure Tracks (l : Ledger) (s : Holdings) : Prop where
  sound : s.Sound
  noted : ∀ name, Option.Rel (fun a e => s.heap.Is a e.1 e.2) (s.handle? name) (l name)

namespace Tracks

variable {l : Ledger}

theorem empty : Tracks (fun _ => none) {} := ⟨sound_empty, fun _ => .none⟩

theorem isSome_eq (h : Tracks l s) (name : String) :
    (s.handle? name).isSome = (l name).isSome := by
  have hname := h.noted name
  generalize s.handle? name = o, l name = e at hname
  cases hname <;> rfl

/-- A handle stands for what was noted of it. -/
theorem is_atom (h : Tracks l s) {name : String} {a : Atom} {t : TableId} {x : String}
    (ha : s.handle? name = some a) (hl : l name = some (t, x)) : s.heap.Is a t x := by
  have hname := h.noted name
  rw [ha, hl] at hname
  cases hname with
  | some hi => exact hi

/-- An entry that held before an operation holds after it. -/
theorem rel_apply (op : Op) {o : Option Atom} {e : Option (TableId × String)}
    (h : Option.Rel (fun a e => s.heap.Is a e.1 e.2) o e) :
    Option.Rel (fun a e => (op.apply s).heap.Is a e.1 e.2) o e := by
  cases h with
  | none => exact .none
  | some hi => exact .some (op.extends_apply s _ _ _ hi)

/-- An operation that leaves the handles alone needs no note. -/
theorem op (h : Tracks l s) (op : Op) (hready : op.Ready s)
    (hhandles : ∀ name, (op.apply s).handle? name = s.handle? name) : Tracks l (op.apply s) where
  sound := op.sound_apply h.sound hready
  noted name := hhandles name ▸ rel_apply op (h.noted name)

theorem drop (h : Tracks l s) (name : String) :
    Tracks (Function.update l name none) (s.dropHandle name) where
  sound := h.sound.dropHandle name
  noted other := by
    have hother := rel_apply (.dropHandle name) (h.noted other)
    rw [handle?_dropHandle]
    by_cases ho : other = name
    · rw [if_pos ho, ho, Function.update_self]
      exact .none
    · rwa [if_neg ho, Function.update_of_ne ho]

theorem keep (h : Tracks l s) {a : Atom} {t : TableId} {x : String} (ha : a ∈ s.hand)
    (hi : s.heap.Is a t x) (name : String) :
    Tracks (Function.update l name (some (t, x))) (s.keep name a) where
  sound := h.sound.keep name ha
  noted other := by
    have hother := rel_apply (.keep name a) (h.noted other)
    have hnew := (Op.keep name a).extends_apply s a t x hi
    rw [handle?_keep]
    by_cases ho : other = name
    · rw [if_pos ho, ho, Function.update_self]
      exact .some hnew
    · rwa [if_neg ho, Function.update_of_ne ho]

theorem takeText (h : Tracks l s) (t : TableId) (text : Option String) :
    Tracks l (s.takeText t text).2 ∧ (s.takeText t text).1 ∈ (s.takeText t text).2.hand ∧
      (s.takeText t text).2.heap.Is (s.takeText t text).1 t (text.getD "") := by
  cases text with
  | some x =>
    exact ⟨h.op (.take t x) trivial fun _ => rfl, List.mem_cons_self,
      Atom.Heap.intern_is s.heap t x⟩
  | none =>
    obtain ⟨hi, hhand⟩ := h.sound.takeEmpty_is t
    exact ⟨h.op (.takeEmpty t) trivial (handle?_takeEmpty s t),
      hhand ▸ List.mem_cons_self, hi⟩

/-- The deed changes the handles in the way that is noted. -/
theorem deed (h : Tracks l s) (d : Deed) : Tracks (d.note l) (d.apply s) := by
  cases d with
  | newTable pinned => exact h.op (.newTable pinned) trivial fun _ => rfl
  | intern t text keep =>
    obtain ⟨htaken, hmem, hi⟩ := h.takeText t text
    cases keep with
    | some name => exact htaken.keep hmem hi name
    | none => exact htaken.op (.letGo _) hmem fun _ => rfl
  | clone handle keep =>
    rw [Deed.apply, Deed.note, ← h.isSome_eq handle]
    cases ha : s.handle? handle with
    | none => exact h
    | some a =>
      -- the clone stands for what the handle stands for
      have hsome : (l handle).isSome = true := by rw [← h.isSome_eq handle, ha, Option.isSome_some]
      obtain ⟨⟨t, x⟩, hl⟩ := Option.isSome_iff_exists.mp hsome
      have hi := (Op.grab a).extends_apply s a t x (h.is_atom ha hl)
      have hgrab : Tracks l (s.grab a) :=
        h.op (.grab a) (mem_held_of_handle ha) fun _ => rfl
      rw [Option.isSome_some, if_pos rfl, hl]
      exact hgrab.keep List.mem_cons_self hi keep
  | drop handle => exact h.drop handle
  | dropTable t => exact h.op (.dropTable t) trivial (handle?_dropTable s t)

theorem afterDeeds (deeds : List Deed) : Tracks (Holdings.noted deeds) (afterDeeds deeds) := by
  rw [Holdings.noted, Holdings.afterDeeds]
  -- from any ledger that tracks the holdings at the start
  generalize hl : (fun _ => none : Ledger) = l, hs : ({} : Holdings) = s
  have hstart : Tracks l s := hl ▸ hs ▸ empty
  clear hl hs
  induction deeds generalizing l s with
  | nil => exact hstart
  | cons d deeds ih => exact ih _ _ (hstart.deed d)

end Tracks

/-- Held atoms are the same exactly if they were interned as the same. -/
theorem Sound.eq_iff (hs : s.Sound) {a b : Atom} (ha : a ∈ s.held) (hb : b ∈ s.held)
    {t u : TableId} {x y : String} (hia : s.heap.Is a t x) (hib : s.heap.Is b u y) :
    a = b ↔ t = u ∧ x = y := by
  constructor
  · rintro rfl
    exact hia.eq hib
  · rintro ⟨rfl, rfl⟩
    exact hs.unique a b t x hia hib (hs.live ha) (hs.live hb)

/-- **Identity of atoms.**  After any deeds there is a handle of a name exactly if one was noted,
and any two handles have the texts that were noted of them; if they were interned in the same
table, they are the same atom exactly if their texts are equal, and if not, they are different
atoms. -/
theorem handles_identity (deeds : List Deed) :
    let s := afterDeeds deeds
    (∀ name, (s.handle? name).isSome = (noted deeds name).isSome) ∧
      ∀ n m a b t u x y, s.handle? n = some a → s.handle? m = some b →
        noted deeds n = some (t, x) → noted deeds m = some (u, y) →
        s.heap.text a = x ∧ s.heap.text b = y ∧
          (t = u → (a = b ↔ s.heap.text a = s.heap.text b)) ∧ (t ≠ u → a ≠ b) := by
  have htracks := Tracks.afterDeeds deeds
  refine ⟨htracks.isSome_eq, fun n m a b t u x y ha hb hn hm => ?_⟩
  have hia := htracks.is_atom ha hn
  have hib := htracks.is_atom hb hm
  have heq := htracks.sound.eq_iff (mem_held_of_handle ha) (mem_held_of_handle hb) hia hib
  refine ⟨hia.text_eq, hib.text_eq, fun htu => ?_, fun htu he => ?_⟩
  · rw [hia.text_eq, hib.text_eq, heq]
    exact and_iff_right htu
  · exact htu (heq.mp he).1

/-- A text is reclaimed and interned again, in another table too, and then its table goes. -/
def sampleDeeds : List Deed :=
  [.newTable [], .newTable ["zig"], .intern 0 (some "zig") (some "a"), .drop "a",
    .intern 0 (some "zig") (some "b"), .clone "b" "c", .intern 1 (some "zig") (some "d"),
    .intern 0 none (some "e"), .dropTable 0]

theorem sampleDeeds_identity :
    ∃ b c d e, (afterDeeds sampleDeeds).handle? "b" = some b ∧
      (afterDeeds sampleDeeds).handle? "c" = some c ∧
      (afterDeeds sampleDeeds).handle? "d" = some d ∧
      (afterDeeds sampleDeeds).handle? "e" = some e ∧ b = c ∧ b ≠ d ∧ b ≠ e := by
  obtain ⟨hsome, hidentity⟩ := handles_identity sampleDeeds
  have hhandle : ∀ name, (noted sampleDeeds name).isSome = true →
      ∃ a, (afterDeeds sampleDeeds).handle? name = some a :=
    fun name hname => Option.isSome_iff_exists.mp ((hsome name).trans hname)
  obtain ⟨b, hb⟩ := hhandle "b" (by decide)
  obtain ⟨c, hc⟩ := hhandle "c" (by decide)
  obtain ⟨d, hd⟩ := hhandle "d" (by decide)
  obtain ⟨e, he⟩ := hhandle "e" (by decide)
  have hnb : noted sampleDeeds "b" = some (0, "zig") := by decide
  refine ⟨b, c, d, e, hb, hc, hd, he, ?_, ?_, ?_⟩
  · obtain ⟨htext, htext', hsame, -⟩ :=
      hidentity "b" "c" b c 0 0 "zig" "zig" hb hc hnb (by decide)
    exact (hsame rfl).mpr (htext.trans htext'.symm)
  · obtain ⟨-, -, -, hother⟩ := hidentity "b" "d" b d 0 1 "zig" "zig" hb hd hnb (by decide)
    exact hother (by decide)
  · obtain ⟨htext, htext', hsame, -⟩ :=
      hidentity "b" "e" b e 0 0 "zig" "" hb he hnb (by decide)
    intro hbe
    have htexts := (hsame rfl).mp hbe
    rw [htext, htext'] at htexts
    exact absurd htexts (by decide)

end ScriptHost.Holdings

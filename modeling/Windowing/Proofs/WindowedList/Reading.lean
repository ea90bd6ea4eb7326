import Windowing.Proofs.WindowedList.Coherence
import Windowing.WindowedList.Entries

/-!
# Reading the window

There are four ways to read what has to be rendered, and all of them are one pass over the items
of the window, each put at its place (`placed`): visiting, collecting the entries, collecting
the indexes, and rendering. A list that is coherent never asks for an item that it does not have,
so the pass goes through exactly the indexes of the window, and each entry holds the item at its
index (`indexes_placed`, `mem_placed`). `readers_agree` says this of every list that operations
lead to, wherever in a batch it is read and also by a listener that is just being told.
-/

namespace Windowing

namespace WindowedList

variable {ι α β : Type} {l : WindowedList ι α}

/-- The items of the window, each at its place. -/
def placed (l : WindowedList ι α) : List (Entry α) :=
  (l.renderedItems.toList.zipIdx l.window.start).map fun p => ⟨p.2, p.1, l.offsetOf p.2⟩

/-! ## Passes over the window -/

theorem foldEntries_eq_foldl (l : WindowedList ι α) (f : β → Entry α → β) (b : β) :
    l.foldEntries f b = l.placed.foldl f b := by
  rw [placed, List.foldl_map]
  rfl

theorem toList_entries (l : WindowedList ι α) : l.entries.toList = l.placed := by
  have h : l.entries = #[] ++ l.placed.toArray :=
    (foldEntries_eq_foldl l _ _).trans List.foldl_push_eq_append'
  rw [h, Array.empty_append]

theorem toList_collectIndexes (l : WindowedList ι α) (buffer : Array Nat) :
    (l.collectIndexes buffer).toList = l.window.indexes := by
  have h : l.collectIndexes buffer = buffer.shrink 0 ++ l.window.indexes.toArray :=
    List.foldl_push_eq_append'
  rw [h]
  simp

/-- Rendering one after the other into a buffer is rendering them all and putting the results
behind what the buffer holds. -/
theorem foldl_render {m : Type → Type} [Monad m] [LawfulMonad m] (render : Entry α → m β)
    (es : List (Entry α)) (rendered : m (Array β)) :
    es.foldl (fun rendered e => do
        let out ← rendered
        return out.push (← render e)) rendered
      = do
        let out ← rendered
        return out ++ (← es.mapM render).toArray := by
  induction es generalizing rendered with
  | nil => simp
  | cons e es ih =>
      rw [List.foldl_cons, ih]
      simp

theorem renderWith_eq_mapM {m : Type → Type} [Monad m] [LawfulMonad m] (l : WindowedList ι α)
    (render : α → Nat → m β) :
    l.renderWith render = l.entries.mapM fun e => render e.item e.index := by
  rw [renderWith, foldEntries_eq_foldl, foldl_render fun e => render e.item e.index,
    Array.mapM_eq_mapM_toList, toList_entries]
  simp

/-! ## What the pass goes through -/

theorem mem_placed {e : Entry α} :
    e ∈ l.placed ↔ l.window.contains e.index = true ∧ l.items[e.index]? = some e.item
      ∧ e.offset = l.offsetOf e.index := by
  have hitem : (e.item, e.index) ∈ l.renderedItems.toList.zipIdx l.window.start
      ↔ l.window.contains e.index = true ∧ l.items[e.index]? = some e.item := by
    rw [List.mk_mem_zipIdx_iff_le_and_getElem?_sub, Array.getElem?_toList, renderedItems,
      Array.getElem?_extract, Window.contains_iff]
    constructor
    · rintro ⟨hstart, h⟩
      rw [Nat.add_sub_cancel' hstart] at h
      split at h
      · exact ⟨⟨hstart, by omega⟩, h⟩
      · cases h
    · rintro ⟨⟨hstart, hstop⟩, h⟩
      obtain ⟨hsize, -⟩ := Array.getElem?_eq_some_iff.mp h
      rw [if_pos (by omega), Nat.add_sub_cancel' hstart]
      exact ⟨hstart, h⟩
  rw [← and_assoc, ← hitem, placed, List.mem_map]
  constructor
  · rintro ⟨⟨item, index⟩, h, rfl⟩
    exact ⟨h, rfl⟩
  · rintro ⟨h, hoffset⟩
    exact ⟨(e.item, e.index), h, congrArg (Entry.mk e.index e.item) hoffset.symm⟩

/-- No index is left out, for the list has all the items of its window. -/
theorem Coherent.indexes_placed (h : l.Coherent) :
    l.placed.map (·.index) = l.window.indexes := by
  have hsize : l.renderedItems.size = l.window.length := by
    rw [renderedItems, Array.size_extract, Nat.min_eq_left h.stop_le_size]
    rfl
  rw [placed, List.map_map]
  show (l.renderedItems.toList.zipIdx l.window.start).map Prod.snd = _
  rw [List.zipIdx_map_snd, Array.length_toList, hsize]
  rfl

/-- Where an entry lies depends on its index alone. -/
theorem Coherent.offsets_placed (h : l.Coherent) :
    l.placed.map (·.offset) = l.window.indexes.map l.offsetOf := by
  rw [← h.indexes_placed, List.map_map]
  refine List.map_congr_left ?_
  intro e he
  exact (mem_placed.mp he).2.2

/-! ## Every reader -/

/-- That the ways of reading the window of a list agree with each other and with its items. -/
structure ReadersAgree (l : WindowedList ι α) : Prop where
  /-- The window is a slice of the items. -/
  start_le_stop : l.window.start ≤ l.window.stop
  stop_le_size : l.window.stop ≤ l.items.size
  /-- The entries come in ascending order, one for each index of the window. -/
  indexes_eq : l.entries.toList.map (·.index)
    = List.range' l.window.start (l.window.stop - l.window.start)
  /-- An entry holds the item at its index, and where that item starts. -/
  entry_eq : ∀ e ∈ l.entries,
    l.items[e.index]? = some e.item ∧ l.itemOffset? e.index = some e.offset
  /-- Visiting goes through the same entries. -/
  foldEntries_eq : ∀ {β : Type} (f : β → Entry α → β) (b : β),
    l.foldEntries f b = l.entries.foldl f b
  collectIndexes_eq : ∀ buffer, (l.collectIndexes buffer).toList = l.entries.toList.map (·.index)
  /-- Each entry is rendered once and in order, whatever else rendering does. -/
  renderWith_eq : ∀ {m : Type → Type} [Monad m] [LawfulMonad m] {β : Type}
    (render : α → Nat → m β),
    l.renderWith render = l.entries.mapM fun e => render e.item e.index
  size_eq : l.entries.size = l.window.length
  contains_iff : ∀ i, (∃ e ∈ l.entries, e.index = i) ↔ l.window.contains i = true
  placementOffset_eq : ∀ e, l.entries[0]? = some e → e.offset = l.placementOffset

theorem Coherent.readersAgree (h : l.Coherent) : l.ReadersAgree := by
  have hindexes : l.entries.toList.map (·.index) = l.window.indexes := by
    rw [toList_entries, h.indexes_placed]
  have hentry : ∀ e ∈ l.entries, l.window.contains e.index = true
      ∧ l.items[e.index]? = some e.item ∧ e.offset = l.offsetOf e.index := by
    intro e he
    rw [← Array.mem_toList_iff, toList_entries] at he
    exact mem_placed.mp he
  refine ⟨h.start_le_stop, h.stop_le_size, hindexes, ?_,
    fun f b => ?_, fun buffer => ?_, fun render => renderWith_eq_mapM l render, ?_, ?_, ?_⟩
  · intro e he
    obtain ⟨-, hitem, hoffset⟩ := hentry e he
    obtain ⟨hsize, -⟩ := Array.getElem?_eq_some_iff.mp hitem
    exact ⟨hitem, by rw [itemOffset?, if_pos hsize, hoffset]⟩
  · rw [foldEntries_eq_foldl, ← toList_entries, Array.foldl_toList]
  · rw [toList_collectIndexes, hindexes]
  · rw [← Array.length_toList, ← List.length_map (·.index), hindexes, Window.length_indexes]
  · intro i
    rw [← Window.mem_indexes, ← hindexes]
    simp
  · intro e he
    have hfirst : l.window.indexes[0]? = some e.index := by
      rw [← hindexes, List.getElem?_map, Array.getElem?_toList, he]
      rfl
    have hstart : e.index = l.window.start := by
      obtain ⟨hlength, hget⟩ := List.getElem?_eq_some_iff.mp hfirst
      rw [← hget]
      exact List.getElem_range' hlength
    rw [(hentry e (Array.mem_of_getElem? he)).2.2, hstart]
    rfl

/-- In whatever state a list is read, also within a batch or by a listener that is being told:
all ways of reading go through the items of the window, each once, in order, and at their place. -/
theorem readers_agree (h : l.Reachable) (s : Script ι α) :
    l.ReadersAgree ∧ (∀ m ∈ trail s l, m.ReadersAgree)
      ∧ ∀ c ∈ (perform s l).events, c.argument.ReadersAgree := by
  have htrail : ∀ m ∈ trail s l, m.ReadersAgree := fun m hm =>
    (Reachable.of_mem_trail s h m hm).coherent.readersAgree
  exact ⟨h.coherent.readersAgree, htrail, fun c hc => htrail _ (argument_mem_trail s l c hc)⟩

/-- Inside a batch, after fewer items came in than the window held. -/
theorem readers_agree_fewer_items :
    ∃ (l m : WindowedList Nat Nat) (s : Script Nat Nat),
      create #[0, 1, 2] { itemExtent := 10.0, viewportExtent := 15.0, listener := some 7 } = .ok m
      ∧ l = m.openBatch ∧ l.window = ⟨0, 3⟩
      ∧ s = .batch (.update (.items #[5]) (.update (.scrollOffset 45.0) .nil))
          (.update (.overscan 0) .nil)
      ∧ l.Reachable ∧ l.ReadersAgree ∧ (∀ m ∈ trail s l, m.ReadersAgree)
      ∧ ∀ c ∈ (perform s l).events, c.argument.ReadersAgree := by
  have h : create #[0, 1, 2] { itemExtent := 10.0, viewportExtent := 15.0, listener := some 7 }
      = .ok _ := rfl
  have hl := (Reachable.create h).openBatch
  exact ⟨_, _, _, h, rfl, by decide +kernel, rfl, hl, readers_agree hl _⟩

end WindowedList

end Windowing

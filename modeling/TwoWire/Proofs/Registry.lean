import TwoWire.Proofs.Transcript

/-! The connections of a line as a table by number. Whoever is released leaves the table, and
the number that the next connection gets only grows. A line, which keeps each connection in its
place, has the same table at any time and gives the same answers. -/

namespace TwoWire

/-- An entry for each connection that is attached, in the order in which they were, with the
buffer it listens with; and the number that the next connection gets. -/
structure Registry where
  entries : List (Nat × Option ByteQueue) := []
  next : Nat := 0
  shorted : Bool := false

namespace Registry

def attach (r : Registry) : Nat × Registry :=
  (r.next, { r with entries := r.entries ++ [(r.next, none)], next := r.next + 1 })

/-- Gives a buffer to the first entry with the number, if there is one. -/
def connect (node : Nat) (buffer : ByteQueue) (r : Registry) : Except LinkError Unit × Registry :=
  if r.entries.any (·.1 == node) then
    let entries := r.entries.replaceF fun e => if e.1 = node then some (e.1, some buffer) else none
    (.ok (), { r with entries })
  else (.error (.detached node), r)

def write (node : Nat) (bytes : List UInt8) (r : Registry) : Except LinkError Unit × Registry :=
  if r.shorted then (.error .lineFault, r)
  else
    let entries := r.entries.map fun e =>
      if e.1 = node then e else (e.1, e.2.map (·.accept bytes))
    (.ok (), { r with entries })

def release (node : Nat) (r : Registry) : Registry :=
  { r with entries := r.entries.filter (·.1 ≠ node) }

def setBuffer (node : Nat) (q : ByteQueue) (r : Registry) : Registry :=
  { r with entries := r.entries.map fun e => if e.1 = node then (e.1, e.2.map fun _ => q) else e }

def step (r : Registry) : SharedLine.Move → Registry
  | .attach => r.attach.2
  | .connect node buffer => (r.connect node buffer).2
  | .drive _ _ => r
  | .write node bytes => (r.write node bytes).2
  | .release node => r.release node
  | .setShorted on => { r with shorted := on }
  | .setBuffer node q => r.setBuffer node q

def run (moves : List SharedLine.Move) : Registry :=
  moves.foldl step {}

end Registry

namespace SharedLine

def Move.isAttach : Move → Bool
  | attach => true
  | _ => false

/-- What the table has of a connection in its place. -/
def entry (x : Tap × Nat) : Option (Nat × Option ByteQueue) :=
  if x.1.attached then some (x.2, x.1.buffer) else none

def registry (l : SharedLine) : Registry where
  entries := l.taps.zipIdx.filterMap entry
  next := l.taps.length
  shorted := l.shorted

variable {l : SharedLine}

theorem zipIdx_mapIdx (f : Nat → Tap → Tap) (taps : List Tap) :
    (taps.mapIdx f).zipIdx = taps.zipIdx.map fun x => (f x.2 x.1, x.2) := by
  apply List.ext_getElem?
  intro i
  simp [Function.comp_def]

/-- What is done to each connection on its own is done to each entry on its own. -/
theorem entries_mapIdx {f : Nat → Tap → Tap}
    {g : Nat × Option ByteQueue → Option (Nat × Option ByteQueue)}
    (h : ∀ i t, entry (f i t, i) = (entry (t, i)).bind g) (taps : List Tap) :
    (taps.mapIdx f).zipIdx.filterMap entry = (taps.zipIdx.filterMap entry).filterMap g := by
  rw [zipIdx_mapIdx, List.filterMap_map, List.filterMap_filterMap]
  exact congrArg (List.filterMap · taps.zipIdx) (funext fun x => h x.2 x.1)

theorem modify_eq_mapIdx (node : Nat) (f : Tap → Tap) (taps : List Tap) :
    taps.modify node f = taps.mapIdx fun i t => if i = node then f t else t := by
  apply List.ext_getElem?
  intro i
  rw [List.getElem?_modify, List.getElem?_mapIdx]
  by_cases hi : node = i
  · simp [hi]
  · have hi' : ¬i = node := fun he => hi he.symm
    simp [hi, hi']

theorem entries_modify {node : Nat} {f : Tap → Tap}
    {g : Nat × Option ByteQueue → Option (Nat × Option ByteQueue)}
    (h : ∀ i t, entry (if i = node then f t else t, i) = (entry (t, i)).bind g) (taps : List Tap) :
    (taps.modify node f).zipIdx.filterMap entry = (taps.zipIdx.filterMap entry).filterMap g := by
  rw [modify_eq_mapIdx]
  exact entries_mapIdx h taps

theorem numbers_sublist (xs : List (Tap × Nat)) :
    ((xs.filterMap entry).map (·.1)).Sublist (xs.map (·.2)) := by
  induction xs with
  | nil => exact .slnil
  | cons x rest ih =>
    by_cases hattached : x.1.attached = true
    · simpa [entry, hattached] using ih
    · simpa [entry, hattached] using ih.cons _

theorem numbers_increase (l : SharedLine) :
    (l.registry.entries.map (·.1)).Pairwise (· < ·) ∧
      ∀ e ∈ l.registry.entries, e.1 < l.registry.next := by
  have hsublist := numbers_sublist l.taps.zipIdx
  rw [List.zipIdx_map_snd] at hsublist
  refine ⟨List.Pairwise.sublist hsublist List.pairwise_lt_range', fun e he => ?_⟩
  have hmem := hsublist.subset (List.mem_map_of_mem he)
  have hlt : e.1 < l.taps.length := by simpa [List.mem_range'] using hmem
  exact hlt

theorem registry_attach (l : SharedLine) :
    l.attach.1 = l.registry.attach.1 ∧ l.attach.2.registry = l.registry.attach.2 := by
  refine ⟨rfl, ?_⟩
  simp [attach, registry, Registry.attach, List.zipIdx_append, entry]

theorem entries_write (node : Nat) (bytes : List UInt8) (taps : List Tap) :
    (taps.mapIdx fun i t => if i = node then t else t.hear bytes).zipIdx.filterMap entry =
      (taps.zipIdx.filterMap entry).map fun e =>
        if e.1 = node then e else (e.1, e.2.map (·.accept bytes)) := by
  rw [← List.filterMap_eq_map]
  refine entries_mapIdx (fun i t => ?_) taps
  by_cases hi : i = node <;> cases hattached : t.attached <;> simp [entry, Tap.hear, hi, hattached]

theorem registry_write (node : Nat) (bytes : List UInt8) (l : SharedLine) :
    (l.write node bytes).1 = (l.registry.write node bytes).1 ∧
      (l.write node bytes).2.registry = (l.registry.write node bytes).2 := by
  have hentries := entries_write node bytes l.taps
  cases hshorted : l.shorted with
  | true => simp [write, Registry.write, registry, hshorted]
  | false => simp [write, Registry.write, registry, hshorted, hentries]

theorem registry_release (node : Nat) (l : SharedLine) :
    (l.release node).2.registry = l.registry.release node := by
  have hentries : (l.taps.modify node fun t => { t with attached := false }).zipIdx.filterMap entry =
      (l.taps.zipIdx.filterMap entry).filter (·.1 ≠ node) := by
    rw [← List.filterMap_eq_filter]
    refine entries_modify (fun i t => ?_) l.taps
    by_cases hi : i = node <;> cases hattached : t.attached <;>
      simp [entry, hi, hattached, Option.guard]
  simp only [release, registry, Registry.release, hentries, List.length_modify]

theorem registry_setBuffer (node : Nat) (q : ByteQueue) (l : SharedLine) :
    ((SharedLine.buffer node).set q l).registry = l.registry.setBuffer node q := by
  have hentries :
      (l.taps.modify node fun t => { t with buffer := t.buffer.map fun _ => q }).zipIdx.filterMap
        entry =
      (l.taps.zipIdx.filterMap entry).map fun e =>
        if e.1 = node then (e.1, e.2.map fun _ => q) else e := by
    rw [← List.filterMap_eq_map]
    refine entries_modify (fun i t => ?_) l.taps
    by_cases hi : i = node <;> cases hattached : t.attached <;> simp [entry, hi, hattached]
  simp only [buffer, registry, Registry.setBuffer, hentries, List.length_modify]

theorem registry_drive (node : Nat) (on : Bool) (l : SharedLine) :
    (l.drive node on).2.registry = l.registry := by
  have hentries : (l.taps.modify node fun t => { t with driving := on }).zipIdx.filterMap entry =
      l.taps.zipIdx.filterMap entry := by
    rw [entries_modify (g := some) fun i t => ?_, List.filterMap_some]
    by_cases hi : i = node <;> cases hattached : t.attached <;> simp [entry, hi, hattached]
  simp only [drive, registry, hentries, List.length_modify]

/-- There is one entry at most for each number. -/
theorem replaceF_eq_map {entries : List (Nat × Option ByteQueue)}
    (increase : (entries.map (·.1)).Pairwise (· < ·)) (node : Nat) (buffer : ByteQueue) :
    (entries.replaceF fun e => if e.1 = node then some (e.1, some buffer) else none) =
      entries.map fun e => if e.1 = node then (e.1, some buffer) else e := by
  induction entries with
  | nil => rfl
  | cons e rest ih =>
    obtain ⟨hfirst, hrest⟩ := List.pairwise_cons.mp increase
    by_cases he : e.1 = node
    · have hothers : rest.map (fun e => if e.1 = node then (e.1, some buffer) else e) = rest := by
        refine List.map_congr_left (g := id) (fun e' he' => ?_) |>.trans (List.map_id rest)
        have hlt : e.1 < e'.1 := hfirst e'.1 (List.mem_map_of_mem he')
        have hne : e'.1 ≠ node := by omega
        exact if_neg hne
      simp [List.replaceF, he, hothers]
    · simp [List.replaceF, he, ih hrest]

theorem any_entries (node : Nat) (l : SharedLine) :
    l.registry.entries.any (·.1 == node) = (l.taps[node]?).any (·.attached) := by
  have hmem : (∃ e ∈ l.registry.entries, e.1 = node) ↔
      ∃ t, l.taps[node]? = some t ∧ t.attached = true := by
    constructor
    · rintro ⟨e, he, rfl⟩
      obtain ⟨⟨t, i⟩, hx, hentry⟩ := List.mem_filterMap.mp he
      rw [List.mem_zipIdx_iff_getElem?] at hx
      by_cases hattached : t.attached = true
      · simp only [entry, hattached, if_true, Option.some.injEq] at hentry
        exact ⟨t, by rw [← hentry]; exact hx, hattached⟩
      · simp [entry, hattached] at hentry
    · rintro ⟨t, ht, hattached⟩
      refine ⟨(node, t.buffer), List.mem_filterMap.mpr ⟨(t, node), ?_, ?_⟩, rfl⟩
      · exact List.mem_zipIdx_iff_getElem?.mpr ht
      · simp [entry, hattached]
  rw [Bool.eq_iff_iff]
  generalize l.taps[node]? = tap at hmem ⊢
  cases tap <;> simpa using hmem

theorem registry_connect (node : Nat) (buffer : ByteQueue) (l : SharedLine) :
    (l.connect node buffer).1 = (l.registry.connect node buffer).1 ∧
      (l.connect node buffer).2.registry = (l.registry.connect node buffer).2 := by
  have hany := any_entries node l
  unfold connect Registry.connect
  rcases htap : l.taps[node]? with _ | ⟨_ | _, driving, held⟩
  · rw [hany, htap]
    exact ⟨rfl, rfl⟩
  · rw [hany, htap]
    exact ⟨rfl, rfl⟩
  · have hset : l.taps.set node ⟨true, driving, some buffer⟩ =
        l.taps.modify node fun t => { t with buffer := some buffer } := by
      rw [List.modify_eq_set_getElem?, htap]
      rfl
    have hentries : (l.taps.modify node fun t => { t with buffer := some buffer }).zipIdx.filterMap
        entry = l.registry.entries.map fun e => if e.1 = node then (e.1, some buffer) else e := by
      rw [← List.filterMap_eq_map]
      refine entries_modify (fun i t => ?_) l.taps
      by_cases hi : i = node <;> cases hattached : t.attached <;> simp [entry, hi, hattached]
    have hfirst := replaceF_eq_map l.numbers_increase.1 node buffer
    rw [hany, htap, hfirst, ← hentries]
    refine ⟨rfl, ?_⟩
    simp only [Option.any_some, if_true, registry, hset, List.length_modify]

theorem registry_step (t : Traffic) (move : Move) :
    (t.step move).line.registry = t.line.registry.step move := by
  cases move with
  | attach => exact (registry_attach t.line).2
  | connect node buffer => exact (registry_connect node buffer t.line).2
  | drive node on => exact registry_drive node on t.line
  | write node bytes => exact (registry_write node bytes t.line).2
  | release node => exact registry_release node t.line
  | setShorted on => rfl
  | setBuffer node q => exact registry_setBuffer node q t.line

theorem next_step (r : Registry) (move : Move) :
    (r.step move).next = r.next + move.isAttach.toNat := by
  cases move with
  | attach => rfl
  | connect node buffer =>
    simp only [Registry.step, Registry.connect]
    split <;> rfl
  | write node bytes =>
    simp only [Registry.step, Registry.write]
    split <;> rfl
  | drive | release | setShorted | setBuffer => rfl

theorem registry_foldl (moves : List Move) (t : Traffic) :
    (moves.foldl Traffic.step t).line.registry = moves.foldl Registry.step t.line.registry := by
  induction moves generalizing t with
  | nil => rfl
  | cons move rest ih =>
    have hrest := ih (t.step move)
    rw [registry_step] at hrest
    exact hrest

theorem next_foldl (moves : List Move) (r : Registry) :
    (moves.foldl Registry.step r).next = r.next + moves.countP Move.isAttach := by
  induction moves generalizing r with
  | nil => rfl
  | cons move rest ih =>
    have hrest := ih (r.step move)
    rw [next_step] at hrest
    rw [List.foldl_cons, hrest, List.countP_cons]
    cases move.isAttach with
    | false => rfl
    | true => exact Nat.add_right_comm _ _ _

theorem length_entries (l : SharedLine) : l.registry.entries.length = l.nodeCount := by
  have htaps : l.taps.zipIdx.map Prod.fst = l.taps := List.zipIdx_map_fst 0 l.taps
  rw [nodeCount, ← htaps, List.countP_map, registry, List.length_filterMap_eq_countP]
  apply List.countP_congr
  rintro ⟨t, i⟩ -
  cases hattached : t.attached <;> simp [entry, hattached]

/-- Whatever is done to a line, its connections are those of the table of which the same was
done: they are found, counted and told apart by their numbers, which are used once. -/
theorem registry_run (limit : Nat) (moves : List Move) :
    let l := (Traffic.run limit moves).line
    let r := Registry.run moves
    l.registry = r ∧
      (∀ node buffer, (l.connect node buffer).1 = (r.connect node buffer).1) ∧
      (∀ node bytes, (l.write node bytes).1 = (r.write node bytes).1) ∧
      l.attach.1 = r.attach.1 ∧ l.nodeCount = r.entries.length ∧
      r.attach.1 = moves.countP Move.isAttach ∧
      (r.entries.map (·.1)).Pairwise (· < ·) ∧ ∀ e ∈ r.entries, e.1 < r.attach.1 := by
  intro l r
  have hl : l.registry = r := registry_foldl moves { line := .withTranscript limit }
  have hnext : l.registry.next = moves.countP Move.isAttach := by
    rw [hl]
    exact (next_foldl moves {}).trans (Nat.zero_add _)
  rw [← hl]
  exact ⟨rfl, fun node buffer => (registry_connect node buffer l).1,
    fun node bytes => (registry_write node bytes l).1, rfl, l.length_entries.symm, hnext,
    l.numbers_increase⟩

end SharedLine

end TwoWire

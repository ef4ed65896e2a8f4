import TwoWire.Counters.Text
import TwoWire.Proofs.RecordText
import TwoWire.Proofs.TimeoutRounding
import TwoWire.Settings.Text

/-! Settings and counters are read back from their texts. Any text that gives some of the
settings, each once, is read as the defaults with those replaced, and only then are they checked. -/

namespace TwoWire

theorem Setting.Field.plain_name (f : Setting.Field) : Plain f.name.toList := by
  cases f <;> decide

theorem Filter.plain_name (f : Filter) : Plain f.name.toList := by
  cases f <;> decide

theorem Counter.plain_name (c : Counter) : Plain c.name.toList := by
  cases c <;> decide

theorem Setting.Field.lookup_name (f : Setting.Field) :
    Settings.shape.fields.lookup f.name = some f := by
  cases f <;> rfl

theorem Filter.lookup_name (f : Filter) : Filter.names.lookup f.name = some f := by
  cases f <;> rfl

theorem Counter.lookup_name (c : Counter) : Counters.shape.fields.lookup c.name = some c := by
  cases c <;> rfl

theorem toNat_le_byteLimit (b : UInt8) : b.toNat ≤ byteLimit :=
  Nat.le_of_lt_succ b.toNat_lt

theorem toNat_le_wordLimit (n : UInt64) : n.toNat ≤ wordLimit :=
  Nat.le_of_lt_succ n.toNat_lt

theorem Setting.reads (x : Setting) : Reads x.field.read x.valueText x := by
  have hbyte (b : UInt8) : b.toNat.toUInt8 = b := UInt8.ofNat_toNat
  have hword (n : UInt64) : n.toNat.toUInt64 = n := UInt64.ofNat_toNat
  cases x with
  | payloadBound n => exact reads_word toNat_le_wordLimit hword (by decide) Setting.payloadBound n
  | filter f => exact (reads_choice f.plain_name f.lookup_name).map Setting.filter rfl
  | broadcast a =>
    exact reads_optional_word toNat_le_byteLimit hbyte (by decide) Setting.broadcast a
  | idleTimeout ms =>
    exact reads_optional_word toNat_le_wordLimit hword (by decide) Setting.idleTimeout ms

/-- A setting as a member of an object in a layout. -/
def Setting.member (l : Layout) (x : Setting) : Settings.shape.Member where
  layout := l
  name := x.field.name
  text := x.valueText
  field := x.field
  value := x
  plain := x.field.plain_name
  known := x.field.lookup_name
  reads := x.reads

namespace Settings

theorem mem_toList_assign (s : Settings) (x y : Setting) :
    y ∈ (s.assign x).toList ↔ y = x ∨ y ∈ s.toList ∧ x.field ≠ y.field := by
  cases x <;> cases y <;> simp [toList, assign, Setting.field]

/-- The settings that are assigned come in whatever their order is, the others stay. -/
theorem mem_toList_assignAll (s : Settings) {given : List Setting}
    (distinct : (given.map Setting.field).Nodup) (x : Setting) :
    x ∈ (s.assignAll given).toList ↔
      x ∈ given ∨ x ∈ s.toList ∧ ∀ y ∈ given, y.field ≠ x.field := by
  induction given generalizing s with
  | nil => simp [assignAll]
  | cons y given ih =>
    obtain ⟨hy, hgiven⟩ := List.nodup_cons.mp distinct
    have hother : ∀ z ∈ given, z.field ≠ y.field := by
      intro z hz h
      exact hy (h ▸ List.mem_map_of_mem hz)
    show x ∈ ((s.assign y).assignAll given).toList ↔ _
    rw [ih (s.assign y) hgiven, mem_toList_assign, List.mem_cons, List.forall_mem_cons]
    constructor
    · rintro (hx | ⟨rfl | ⟨hx, hne⟩, hrest⟩)
      · exact .inl (.inr hx)
      · exact .inl (.inl rfl)
      · exact .inr ⟨hx, hne, hrest⟩
    · rintro ((rfl | hx) | ⟨hx, hne, hrest⟩)
      · -- What is assigned later has other fields and leaves this one as it is.
        exact .inr ⟨.inl rfl, hother⟩
      · exact .inl hx
      · exact .inr ⟨.inr ⟨hx, hne⟩, hrest⟩

theorem eq_of_toList_subset {s t : Settings} (h : s.toList ⊆ t.toList) : s = t := by
  obtain ⟨bound, filter, broadcast, timeout⟩ := s
  obtain ⟨bound', filter', broadcast', timeout'⟩ := t
  simpa [toList] using h

/-- The text of some settings in any layout. -/
def laidJson (lead inner : Gap) (given : List (Layout × Setting)) (trail : Gap) : String :=
  String.ofList (laidObject lead inner
    (given.map fun (l, x) => l.member x.field.name x.valueText) trail.text)

theorem laidJson_none (given : List Setting) :
    laidJson .none .none (given.map fun x => (.none, x)) .none = jsonOf given := by
  have hmembers : (given.map fun x => (Layout.none, x)).map
      (fun (l, x) => l.member x.field.name x.valueText) = given.map Setting.text := by
    rw [List.map_map]
    exact List.map_congr_left fun x _ => Layout.member_none x.field.name x.valueText
  rw [laidJson, hmembers]
  rfl

theorem readUnchecked_laidJson (lead inner : Gap) {given : List (Layout × Setting)}
    (distinct : (given.map fun g => g.2.field).Nodup) (trail : Gap) :
    readUnchecked (laidJson lead inner given trail).toList =
      .ok (({} : Settings).assignAll (given.map Prod.snd), trail.text) := by
  let members := given.map fun (l, x) => x.member l
  have hdistinct : (members.map RecordShape.Member.field).Nodup := by
    rw [List.map_map]
    exact distinct
  have hread := RecordShape.read_object lead inner hdistinct trail.text
  have hwritten : members.map RecordShape.Member.written =
      given.map fun (l, x) => l.member x.field.name x.valueText := by
    rw [List.map_map]
    rfl
  have hvalues : (members.map RecordShape.Member.entry).map Prod.snd = given.map Prod.snd := by
    rw [List.map_map, List.map_map]
    rfl
  rw [hwritten] at hread
  rw [readUnchecked, laidJson, String.toList_ofList, hread]
  show Except.ok (({} : Settings).assignAll _, _) = _
  rw [hvalues]

theorem readUnchecked_jsonOf {given : List Setting} (distinct : (given.map Setting.field).Nodup) :
    readUnchecked (jsonOf given).toList = .ok (({} : Settings).assignAll given, []) := by
  have hvalues : (given.map fun x => (Layout.none, x)).map Prod.snd = given := by
    rw [List.map_map]
    exact List.map_id given
  have hfields : ((given.map fun x => (Layout.none, x)).map fun g => g.2.field).Nodup := by
    rwa [List.map_map]
  have hread := readUnchecked_laidJson .none .none hfields .none
  rwa [laidJson_none, hvalues] at hread

theorem expectEnd_gap (gap : Gap) : expectEnd gap.text = .ok () := by
  have h : skipBlank gap.text = [] := by
    have h := gap.skipBlank_append []
    rwa [List.append_nil] at h
  rw [expectEnd, h]
  rfl

/-- A text that is read to its end comes to its settings if they pass their checks, and else to
the fault that these find. -/
theorem ofJson_of_read {text : String} {s : Settings} (trail : Gap)
    (h : readUnchecked text.toList = .ok (s, trail.text)) :
    (ofJson text = .ok s ↔ s.check = .ok ()) ∧
      ∀ fault, ofJson text = .error (.badParam fault) ↔ s.check = .error fault := by
  cases hcheck : s.check with
  | error found =>
    have hjson : ofJson text = .error (.badParam found) := by
      simp only [ofJson, h, bind, Except.bind, expectEnd_gap, pure, Except.pure, hcheck]
    simp [hjson]
  | ok =>
    have hjson : ofJson text = .ok s := by
      simp only [ofJson, h, bind, Except.bind, expectEnd_gap, pure, Except.pure, hcheck]
    simp [hjson]

/-- Nothing is found out of range in a text that cannot be read to its end. -/
theorem read_of_ofJson {text : String} {fault : ParamFault}
    (h : ofJson text = .error (.badParam fault)) :
    ∃ s rest, readUnchecked text.toList = .ok (s, rest) ∧ expectEnd rest = .ok () ∧
      s.check = .error fault := by
  cases hread : readUnchecked text.toList with
  | error cut =>
    simp only [ofJson, hread] at h
    cases h
  | ok read =>
    obtain ⟨s, rest⟩ := read
    refine ⟨s, rest, rfl, ?_⟩
    simp only [ofJson, hread, bind, Except.bind] at h
    cases hend : expectEnd rest with
    | error cut =>
      rw [hend] at h
      cases h
    | ok =>
      rw [hend] at h
      cases hcheck : s.check with
      | error found =>
        simp only [pure, Except.pure, hcheck] at h
        cases h
        exact ⟨rfl, rfl⟩
      | ok =>
        simp only [pure, Except.pure, hcheck] at h
        cases h

theorem ofJson_toJson {s : Settings} (h : s.check = .ok ()) : ofJson s.toJson = .ok s := by
  have hdistinct : (s.toList.map Setting.field).Nodup := by
    show Setting.Field.all.Nodup
    decide
  have hread := readUnchecked_jsonOf hdistinct
  rw [assignAll_toList] at hread
  exact (ofJson_of_read .none hread).1.mpr h

theorem check_eq_ok_iff (s : Settings) : s.check = .ok () ↔
    1 ≤ s.payloadBound.toNat ∧ s.payloadBound.toNat ≤ payloadLimit ∧ s.idleTimeout ≠ some 0 := by
  rw [check_eq]
  by_cases hbound : 1 ≤ s.payloadBound.toNat ∧ s.payloadBound.toNat ≤ payloadLimit
  · rw [if_pos hbound]
    by_cases htimeout : s.idleTimeout = some 0
    · simp [htimeout]
    · simp [htimeout, hbound]
  · rw [if_neg hbound]
    simp only [reduceCtorEq, false_iff]
    exact fun h => hbound ⟨h.1, h.2.1⟩

end Settings

/-- A counter of some as a member of an object. -/
def Counter.member (c : Counters) (k : Counter) : Counters.shape.Member where
  layout := .none
  name := k.name
  text := decimal (c.get k).toNat
  field := k
  value := c.get k
  plain := k.plain_name
  known := k.lookup_name
  reads := reads_word toNat_le_wordLimit (fun _ => UInt64.ofNat_toNat) (by decide) id (c.get k)

namespace Counters

theorem ofList?_get (c : Counters) : ofList? (Counter.all.map fun k => (k, c.get k)) = some c :=
  rfl

theorem ofJson_toJson (c : Counters) : ofJson c.toJson = .ok c := by
  have hdistinct : ((Counter.all.map (Counter.member c)).map RecordShape.Member.field).Nodup := by
    show Counter.all.Nodup
    decide
  have hread := RecordShape.read_object .none .none hdistinct []
  have hwritten : (Counter.all.map (Counter.member c)).map RecordShape.Member.written =
      Counter.all.map fun k => k.text (c.get k) := by
    rw [List.map_map]
    exact List.map_congr_left fun k _ => Layout.member_none k.name _
  have hentries : (Counter.all.map (Counter.member c)).map RecordShape.Member.entry =
      Counter.all.map fun k => (k, c.get k) := by
    rw [List.map_map]
    rfl
  rw [hwritten, laidObject_none, hentries] at hread
  rw [ofJson, toJson, String.toList_ofList, hread]
  simp only [bind, Except.bind, ofList?_get]
  rfl

end Counters

namespace Settings

/-- The text of settings within their limits is read as these settings. A text that gives some
settings, each once, in any order and any layout, is read as the defaults with those replaced; it
is accepted exactly if the checks accept these, and otherwise refused for the fault that the
checks find, which is never found in a text that cannot be read to its end. The text of any
counters is read as these counters. -/
theorem texts_read_back :
    (∀ s : Settings,
      (s.check = .ok () ↔ 1 ≤ s.payloadBound.toNat ∧ s.payloadBound.toNat ≤ payloadLimit ∧
        s.idleTimeout ≠ some 0) ∧
      (s.check = .ok () → ofJson s.toJson = .ok s)) ∧
      (∀ given : List Setting,
        laidJson .none .none (given.map fun x => (.none, x)) .none = jsonOf given) ∧
      (∀ (lead inner trail : Gap) (given : List (Layout × Setting)),
        (given.map fun g => g.2.field).Nodup →
        ∃ s : Settings,
          (∀ x, x ∈ s.toList ↔ x ∈ given.map Prod.snd ∨
            x ∈ ({} : Settings).toList ∧ ∀ g ∈ given, g.2.field ≠ x.field) ∧
          readUnchecked (laidJson lead inner given trail).toList = .ok (s, trail.text) ∧
          (ofJson (laidJson lead inner given trail) = .ok s ↔ s.check = .ok ()) ∧
          ∀ fault, ofJson (laidJson lead inner given trail) = .error (.badParam fault) ↔
            s.check = .error fault) ∧
      (∀ text fault, ofJson text = .error (.badParam fault) →
        ∃ s rest, readUnchecked text.toList = .ok (s, rest) ∧ expectEnd rest = .ok () ∧
          s.check = .error fault) ∧
      ∀ c : Counters, Counters.ofJson c.toJson = .ok c := by
  refine ⟨fun s => ⟨s.check_eq_ok_iff, ofJson_toJson⟩, laidJson_none,
    fun lead inner trail given distinct => ?_, fun _ _ => read_of_ofJson, Counters.ofJson_toJson⟩
  have hread := readUnchecked_laidJson lead inner distinct trail
  obtain ⟨haccepts, hrefuses⟩ := ofJson_of_read trail hread
  refine ⟨_, fun x => ?_, hread, haccepts, hrefuses⟩
  rw [mem_toList_assignAll _ (by rwa [List.map_map]), List.forall_mem_map]

/-- Three settings with blanks between them, of which the bound comes last, and a bound that is
out of range. -/
theorem texts_read_back_bound_last :
    let blank : Gap := ⟨[' '], by simp [isBlank]⟩
    let layout : Layout := ⟨blank, .none, blank, .none⟩
    let given : List (Layout × Setting) := [(layout, .idleTimeout (some 50)),
      (layout, .broadcast (some 255)), (layout, .payloadBound 8)]
    let s : Settings := { payloadBound := 8, broadcast := some 255, idleTimeout := some 50 }
    let outside : List (Layout × Setting) := [(layout, .payloadBound 500)]
    let text := laidJson .none blank outside .none
    (given.map fun g => g.2.field).Nodup ∧ s.check = .ok () ∧
      ofJson (laidJson .none blank given blank) = .ok s ∧ ofJson s.toJson = .ok s ∧
      ofJson text = .error (.badParam (.boundOutOfRange 500)) ∧
      ∃ u rest, readUnchecked text.toList = .ok (u, rest) ∧ expectEnd rest = .ok () ∧
        u.check = .error (.boundOutOfRange 500) := by
  intro blank layout given s outside text
  have hcheck : s.check = .ok () := rfl
  have distinct : (given.map fun g => g.2.field).Nodup := by decide
  have hdistinct : (outside.map fun g => g.2.field).Nodup := by decide
  obtain ⟨hwhole, -, hpart, hfound, -⟩ := texts_read_back
  obtain ⟨t, ht, -, haccepts, -⟩ := hpart .none blank blank given distinct
  obtain ⟨u, hu, -, -, hrefuses⟩ := hpart .none blank .none outside hdistinct
  have hs : ∀ x ∈ s.toList, x ∈ given.map Prod.snd ∨
      x ∈ ({} : Settings).toList ∧ ∀ g ∈ given, g.2.field ≠ x.field := by decide
  have hwide : ∀ x ∈ Settings.toList { payloadBound := 500 }, x ∈ outside.map Prod.snd ∨
      x ∈ ({} : Settings).toList ∧ ∀ g ∈ outside, g.2.field ≠ x.field := by decide
  obtain rfl : s = t := eq_of_toList_subset fun x hx => (ht x).mpr (hs x hx)
  obtain rfl : { payloadBound := 500 } = u :=
    eq_of_toList_subset fun x hx => (hu x).mpr (hwide x hx)
  have hbad : ofJson text = .error (.badParam (.boundOutOfRange 500)) := (hrefuses _).mpr rfl
  exact ⟨distinct, hcheck, haccepts.mpr hcheck, (hwhole s).2 hcheck, hbad, hfound text _ hbad⟩

end Settings

end TwoWire

import TwoWire.Proofs.NumeralText

/-! Reading a record back from an object in a text. The members may come in any order and with
any blanks between their parts, as long as no field comes twice. What a member has to be for that
is known of it before any text is read. -/

namespace TwoWire

/-- Blanks between two parts of a text. -/
structure Gap where
  text : List Char
  blank : ∀ c ∈ text, isBlank c = true

def Gap.none : Gap :=
  ⟨[], nofun⟩

theorem Gap.skipBlank_append (gap : Gap) (s : List Char) :
    skipBlank (gap.text ++ s) = skipBlank s :=
  List.dropWhile_append_of_pos gap.blank

theorem skipBlank_cons {c : Char} (h : isBlank c = false) (s : List Char) :
    skipBlank (c :: s) = c :: s :=
  List.dropWhile_cons_of_neg (Bool.not_eq_true _ ▸ h)

theorem Gap.skipBlank_cons (gap : Gap) {c : Char} (h : isBlank c = false) (s : List Char) :
    skipBlank (gap.text ++ c :: s) = c :: s := by
  rw [gap.skipBlank_append, TwoWire.skipBlank_cons h]

theorem Gap.expectMark (gap : Gap) (mark : Char) (h : isBlank mark = false) (s : List Char) :
    expectMark mark (gap.text ++ mark :: s) = .ok s := by
  rw [TwoWire.expectMark, gap.skipBlank_cons h]
  exact if_pos rfl

theorem isBlank_of_isDigit {c : Char} (h : c.isDigit = true) : isBlank c = false := by
  apply Bool.eq_false_iff.mpr
  intro hblank
  simp only [isBlank, Bool.or_eq_true, beq_iff_eq] at hblank
  rcases hblank with ((rfl | rfl) | rfl) | rfl <;> cases h

theorem endsNumber_of_isBlank {c : Char} (h : isBlank c = true) (s : List Char) :
    EndsNumber (c :: s) := by
  intro d hd
  obtain rfl : c = d := Option.some.inj hd
  simp only [isBlank, Bool.or_eq_true, beq_iff_eq] at h
  rcases h with ((rfl | rfl) | rfl) | rfl <;> decide

theorem endsNumber_comma (s : List Char) : EndsNumber (',' :: s) := by
  rintro d ⟨⟩
  decide

theorem endsNumber_brace (s : List Char) : EndsNumber ('\x7d' :: s) := by
  rintro d ⟨⟩
  decide

theorem EndsNumber.gap {s : List Char} (ends : EndsNumber s) (gap : Gap) :
    EndsNumber (gap.text ++ s) := by
  obtain ⟨text, hblank⟩ := gap
  cases text with
  | nil => exact ends
  | cons c text => exact endsNumber_of_isBlank (hblank c (.head _)) (text ++ s)

/-- Behind any blanks the reader takes this text for this value and stops right after it. -/
def Reads {α : Type} (read : Reader α) (text : List Char) (a : α) : Prop :=
  ∀ (gap : Gap) (rest : List Char), EndsNumber rest →
    read (gap.text ++ (text ++ rest)) = .ok (a, rest)

section Reads

variable {α β : Type} {read : Reader α} {text : List Char} {a : α}

theorem Reads.map (h : Reads read text a) (f : α → β) {b : β} (hf : f a = b) :
    Reads (fun s => do let (a, s) ← read s; return (f a, s)) text b := by
  intro gap rest ends
  simp only [h gap rest ends, ← hf]
  rfl

theorem reads_natural {limit n : Nat} (h : n ≤ limit) (wide : limit < 18446744073709551616) :
    Reads (readNatural limit) (decimal n) n := by
  intro gap rest ends
  have hnumeral := readNumeral_decimal (Nat.lt_of_le_of_lt h wide) ends
  obtain ⟨c, digits, hdigits, hdigit, -⟩ := decimal_cons n
  rw [hdigits, List.cons_append] at hnumeral ⊢
  rw [readNatural, gap.skipBlank_cons (isBlank_of_isDigit hdigit)]
  simp only [hdigit, or_true, if_true, hnumeral, bind, Except.bind, h]
  rfl

theorem reads_optional_natural {limit : Nat} {n : Option Nat} (h : ∀ m ∈ n, m ≤ limit)
    (wide : limit < 18446744073709551616) :
    Reads (readOptional (readNatural limit)) (optionalText decimal n) n := by
  intro gap rest ends
  cases n with
  | none =>
    show readOptional (readNatural limit) (gap.text ++ 'n' :: ('u' :: 'l' :: 'l' :: rest)) = _
    rw [readOptional, gap.skipBlank_cons (by decide)]
    rfl
  | some m =>
    have hnatural := reads_natural (h m rfl) wide .none rest ends
    obtain ⟨c, digits, hdigits, hdigit, -⟩ := decimal_cons m
    show readOptional (readNatural limit) (gap.text ++ (decimal m ++ rest)) = _
    rw [hdigits, List.cons_append] at hnatural ⊢
    rw [readOptional, gap.skipBlank_cons (isBlank_of_isDigit hdigit)]
    split
    · rename_i h
      rw [(List.cons.inj h).1] at hdigit
      cases hdigit
    · have hread : readNatural limit (c :: (digits ++ rest)) = .ok (m, rest) := hnatural
      simp only [hread, bind, Except.bind]
      rfl

section Word

variable {limit : Nat} {toNat : α → Nat} {ofNat : Nat → α} (fits : ∀ a, toNat a ≤ limit)
  (back : ∀ a, ofNat (toNat a) = a) (wide : limit < 18446744073709551616)
include fits back wide

theorem reads_word (f : α → β) (a : α) :
    Reads (fun s => do let (n, s) ← readNatural limit s; return (f (ofNat n), s))
      (decimal (toNat a)) (f a) :=
  (reads_natural (fits a) wide).map (fun n => f (ofNat n)) (congrArg f (back a))

theorem reads_optional_word (f : Option α → β) (a : Option α) :
    Reads (fun s => do
        let (n, s) ← readOptional (readNatural limit) s
        return (f (n.map ofNat), s))
      (optionalText (fun a => decimal (toNat a)) a) (f a) := by
  have ha : ∀ m ∈ a.map toNat, m ≤ limit := by
    intro m hm
    obtain ⟨b, -, rfl⟩ := Option.map_eq_some_iff.mp hm
    exact fits b
  have htext : optionalText (fun a => decimal (toNat a)) a =
      optionalText decimal (a.map toNat) := by
    cases a <;> rfl
  have hback : (a.map toNat).map ofNat = a := by
    rw [Option.map_map]
    exact (Option.map_congr fun b _ => back b).trans Option.map_id'
  rw [htext]
  exact (reads_optional_natural ha wide).map (fun n => f (n.map ofNat)) (congrArg f hback)

end Word

end Reads

/-- A text that quotes need nothing escaped for. -/
def Plain (name : List Char) : Prop :=
  ∀ c ∈ name, c ≠ '\x22' ∧ c ≠ '\x5c' ∧ ¬ c < ' '

instance (name : List Char) : Decidable (Plain name) :=
  List.decidableBAll (fun c => c ≠ '\x22' ∧ c ≠ '\x5c' ∧ ¬ c < ' ') name

theorem Quoted.readWithin_plain {name : List Char} (plain : Plain name) {n : Nat}
    (h : name.length < n) (s : List Char) :
    readWithin n (name ++ '\x22' :: s) = .ok (name, s) := by
  induction name generalizing n with
  | nil =>
    obtain ⟨n, rfl⟩ : ∃ m, n = m + 1 := ⟨n - 1, by omega⟩
    rfl
  | cons c name ih =>
    obtain ⟨n, rfl⟩ : ∃ m, n = m + 1 := ⟨n - 1, by omega⟩
    obtain ⟨hquote, hescape, hblank⟩ := plain c (.head _)
    have hrest := ih (fun d hd => plain d (.tail _ hd)) (n := n) (Nat.lt_of_succ_lt_succ h)
    rw [List.cons_append, readWithin, if_neg hquote, if_neg hescape, if_neg hblank, hrest]
    rfl

theorem Quoted.read_plain {name : List Char} (plain : Plain name) (s : List Char) :
    Quoted.read (name ++ '\x22' :: s) = .ok (name, s) := by
  apply Quoted.readWithin_plain plain
  rw [List.length_append, List.length_cons]
  omega

theorem reads_choice {α : Type} {names : List (String × α)} {name : String} {a : α}
    (plain : Plain name.toList) (known : names.lookup name = some a) :
    Reads (readChoice names) ('\x22' :: name.toList ++ ['\x22']) a := by
  intro gap rest _
  have htext : '\x22' :: name.toList ++ ['\x22'] ++ rest =
      '\x22' :: (name.toList ++ '\x22' :: rest) := by
    rw [List.append_assoc, List.cons_append, List.singleton_append]
  rw [htext, readChoice, gap.skipBlank_cons (by decide)]
  show readName names ('\x22' :: (name.toList ++ '\x22' :: rest)) = .ok (a, rest)
  rw [readName, skipBlank_cons (by decide)]
  simp only [Quoted.read_plain plain, bind, Except.bind, String.ofList_toList, known]
  rfl

/-- Where blanks stand in and behind a member of an object: before its name, its colon and its
value, and before what comes next. -/
structure Layout where
  name : Gap
  colon : Gap
  value : Gap
  behind : Gap

/-- A member of an object in a layout. -/
def Layout.member (l : Layout) (name : String) (value : List Char) : List Char :=
  l.name.text ++ '\x22' :: (name.toList ++ '\x22' :: (l.colon.text ++ ':' ::
    (l.value.text ++ (value ++ l.behind.text))))

def Layout.none : Layout :=
  ⟨.none, .none, .none, .none⟩

theorem Layout.member_none (name : String) (value : List Char) :
    Layout.none.member name value = memberText name value := by
  show '\x22' :: (name.toList ++ '\x22' :: ':' :: (value ++ [])) = memberText name value
  rw [List.append_nil]
  rfl

/-- An object in a text. -/
def laidObject (lead inner : Gap) (members : List (List Char)) (behind : List Char) : List Char :=
  lead.text ++ '\x7b' :: (inner.text ++ ([','].intercalate members ++ '\x7d' :: behind))

theorem laidObject_none (members : List (List Char)) :
    laidObject .none .none members [] = objectText members :=
  rfl

namespace RecordShape

variable {φ ν : Type} (shape : RecordShape φ ν)

/-- A member of an object that a record can be read from: its name is that of a field, and
readers of that field take its text for its value. -/
structure Member where
  layout : Layout
  name : String
  text : List Char
  field : φ
  value : ν
  plain : Plain name.toList
  known : shape.fields.lookup name = some field
  reads : Reads (shape.value field) text value

variable {shape}

def Member.written (m : shape.Member) : List Char :=
  m.layout.member m.name m.text

def Member.entry (m : shape.Member) : φ × ν :=
  (m.field, m.value)

theorem Member.written_append (m : shape.Member) (s : List Char) :
    m.written ++ s = m.layout.name.text ++ '\x22' :: (m.name.toList ++ '\x22' ::
      (m.layout.colon.text ++ ':' :: (m.layout.value.text ++
        (m.text ++ (m.layout.behind.text ++ s))))) := by
  simp only [written, Layout.member, List.append_assoc, List.cons_append]

/-- What stands behind the first member of an object and before its end. -/
def behindFirst (members : List shape.Member) : List Char :=
  members.flatMap fun m => ',' :: m.written

theorem intercalate_written (m : shape.Member) (members : List shape.Member) :
    [','].intercalate ((m :: members).map Member.written) = m.written ++ behindFirst members := by
  induction members generalizing m with
  | nil => exact List.intercalate_singleton.trans (List.append_nil _).symm
  | cons m' members ih =>
    have hrest : [','].intercalate (m'.written :: members.map Member.written) =
        m'.written ++ behindFirst members := ih m'
    rw [List.map_cons, List.map_cons, List.intercalate_cons_cons, hrest, List.append_assoc]
    rfl

theorem length_le_behindFirst (members : List shape.Member) :
    members.length ≤ (behindFirst members).length := by
  induction members with
  | nil => exact Nat.le_refl _
  | cons m members ih =>
    have hcons : behindFirst (m :: members) = ',' :: m.written ++ behindFirst members := rfl
    rw [hcons, List.length_append, List.length_cons, List.length_cons]
    omega

theorem endsNumber_behindFirst (members : List shape.Member) (rest : List Char) :
    EndsNumber (behindFirst members ++ '\x7d' :: rest) := by
  cases members with
  | nil => exact endsNumber_brace rest
  | cons m members => exact endsNumber_comma _

variable [DecidableEq φ]

theorem next_gap (n : Nat) (seen : List (φ × ν)) (gap : Gap) (s : List Char) :
    readMembers.next shape n seen (gap.text ++ s) = readMembers.next shape n seen s := by
  rw [readMembers.next, readMembers.next, gap.skipBlank_append]

theorem next_comma (n : Nat) (seen : List (φ × ν)) (s : List Char) :
    readMembers.next shape n seen (',' :: s) = shape.readMembers n seen s := by
  rw [readMembers.next, skipBlank_cons (by decide)]
  rfl

theorem next_brace (n : Nat) (seen : List (φ × ν)) (s : List Char) :
    readMembers.next shape n seen ('\x7d' :: s) = .ok (seen, s) := by
  rw [readMembers.next, skipBlank_cons (by decide)]
  rfl

/-- One more member is read. -/
theorem readMembers_written (n : Nat) {seen : List (φ × ν)} (m : shape.Member)
    (fresh : ∀ p ∈ seen, p.1 ≠ m.field) {rest : List Char} (ends : EndsNumber rest) :
    shape.readMembers (n + 1) seen (m.written ++ rest) =
      readMembers.next shape n (seen ++ [m.entry]) rest := by
  have hfresh : seen.any (fun p => p.1 = m.field) = false := by
    rw [List.any_eq_false]
    exact fun p hp => by simpa only [decide_eq_true_eq] using fresh p hp
  rw [m.written_append, readMembers, m.layout.name.skipBlank_cons (by decide)]
  simp only [Quoted.read_plain m.plain, bind, Except.bind, String.ofList_toList, m.known, hfresh,
    m.layout.colon.expectMark ':' (by decide), Bool.false_eq_true, if_false]
  rw [m.reads m.layout.value _ (ends.gap m.layout.behind)]
  exact next_gap n _ m.layout.behind rest

/-- All other members are read, up to the end of the object. -/
theorem next_behindFirst {n : Nat} {seen : List (φ × ν)} {members : List shape.Member}
    (fuel : members.length ≤ n)
    (distinct : (seen.map Prod.fst ++ members.map Member.field).Nodup) (rest : List Char) :
    readMembers.next shape n seen (behindFirst members ++ '\x7d' :: rest) =
      .ok (seen ++ members.map Member.entry, rest) := by
  induction members generalizing n seen with
  | nil =>
    rw [List.map_nil, List.append_nil]
    exact next_brace n seen rest
  | cons m members ih =>
    obtain ⟨n, rfl⟩ : ∃ k, n = k + 1 := Nat.exists_eq_succ_of_ne_zero (Nat.ne_zero_of_lt fuel)
    have hfresh : ∀ p ∈ seen, p.1 ≠ m.field := fun p hp =>
      (List.nodup_append.mp distinct).2.2 p.1 (List.mem_map_of_mem hp) m.field (.head _)
    -- A member that is read goes from those to come to those seen, in its place.
    have hfields : (seen ++ [m.entry]).map Prod.fst ++ members.map Member.field =
        seen.map Prod.fst ++ (m :: members).map Member.field := by
      rw [List.map_append, List.append_assoc]
      rfl
    have hrest := ih (Nat.le_of_succ_le_succ fuel) (hfields ▸ distinct)
    have hcons : behindFirst (m :: members) ++ '\x7d' :: rest =
        ',' :: (m.written ++ (behindFirst members ++ '\x7d' :: rest)) :=
      List.append_assoc (',' :: m.written) _ _
    rw [hcons, next_comma, readMembers_written n m hfresh (endsNumber_behindFirst members rest),
      hrest, List.append_assoc]
    rfl

theorem readMembers_gap (n : Nat) (seen : List (φ × ν)) (gap : Gap) (s : List Char) :
    shape.readMembers (n + 1) seen (gap.text ++ s) = shape.readMembers (n + 1) seen s := by
  rw [readMembers, readMembers, gap.skipBlank_append]

/-- A record is read from an object whatever fields of it stand there and in what order. -/
theorem read_object (lead inner : Gap) {members : List shape.Member}
    (distinct : (members.map Member.field).Nodup) (rest : List Char) :
    shape.read (laidObject lead inner (members.map Member.written) rest) =
      .ok (members.map Member.entry, rest) := by
  rw [laidObject, read, lead.skipBlank_cons (by decide)]
  show shape.readObject (inner.text ++
    ([','].intercalate (members.map Member.written) ++ '\x7d' :: rest)) = _
  cases members with
  | nil =>
    show shape.readObject (inner.text ++ '\x7d' :: rest) = .ok ([], rest)
    rw [readObject, inner.skipBlank_cons (by decide)]
    rfl
  | cons m members =>
    have hlength := length_le_behindFirst members
    have hfresh : ∀ p ∈ ([] : List (φ × ν)), p.1 ≠ m.field := nofun
    rw [intercalate_written, List.append_assoc]
    obtain ⟨s, hquote⟩ : ∃ s, skipBlank (inner.text ++ (m.written ++
        (behindFirst members ++ '\x7d' :: rest))) = '\x22' :: s := by
      rw [inner.skipBlank_append, m.written_append, m.layout.name.skipBlank_cons (by decide)]
      exact ⟨_, rfl⟩
    rw [readObject, hquote]
    show shape.readMembers (_ + 1) [] _ = _
    rw [readMembers_gap, readMembers_written _ m hfresh (endsNumber_behindFirst members rest)]
    apply next_behindFirst
    · simp only [List.length_append]
      omega
    · exact distinct

end RecordShape

end TwoWire

import OrderDesk.Json.Document
import OrderDesk.Proofs.Json.Lexeme
import OrderDesk.Proofs.Json.Sorted

/-!
# Reading documents back

A value without doubles, printed and read, is that value, as long as it is not
nested too deeply. Scanning has fuel for every value, item and member, since
each takes up a byte or more of the text.
-/

namespace OrderDesk.Json

/-- All numbers are integers that a text can hold, and at most `depth` levels
are opened. -/
inductive Plain : (depth : Nat) → Json → Prop
  | null {depth : Nat} : Plain depth .null
  | bool {depth : Nat} (b : Bool) : Plain depth (.bool b)
  | integer {depth : Nat} {n : Int} (h : IsWord n) : Plain depth (.number (.integer n))
  | string {depth : Nat} (s : String) : Plain depth (.string s)
  | array {depth : Nat} {items : List Json} (h : ∀ j ∈ items, Plain depth j) : Plain (depth + 1) (.array items)
  | object {depth : Nat} {members : List (String × Json)} (h : ∀ m ∈ members, Plain depth m.2) :
    Plain (depth + 1) (.object members)

theorem Plain.sorted {depth : Nat} {j : Json} (h : Plain depth j) : Plain depth j.sorted := by
  induction h with
  | null => exact .null
  | bool b => exact .bool b
  | integer h => exact .integer h
  | string s => exact .string s
  | array _ ih =>
    refine .array fun j hj => ?_
    rw [sortedItems_eq_map] at hj
    obtain ⟨i, hi, rfl⟩ := List.mem_map.1 hj
    exact ih i hi
  | object _ ih =>
    refine .object fun m hm => ?_
    have hm := mem_sortMembers hm
    rw [sortedMembers_eq_map] at hm
    obtain ⟨n, hn, rfl⟩ := List.mem_map.1 hm
    exact ih n hn

def Lexeme.read {α : Type} (a : α) : Lexeme α := ⟨.ok a, .ok ()⟩

mutual

/-- The document of a printed value. -/
def document : Json → Document
  | .null => .null
  | .bool b => .bool b
  | .number n => .number (.read n)
  | .string s => .string (.read s)
  | .array items => .array (documents items) none
  | .object members => .object (memberDocuments members) none
termination_by structural j => j

def documents : List Json → List Document
  | [] => []
  | j :: items => j.document :: documents items
termination_by structural items => items

def memberDocuments : List (String × Json) → List (Lexeme String × Document)
  | [] => []
  | (name, j) :: members => (.read name, j.document) :: memberDocuments members
termination_by structural members => members

end

/-! ## Scanning -/

/-- What an integer starts with is unlike any byte that is neither a minus
nor a digit. -/
theorem ne_of_startsInteger {b c : UInt8} (hb : b = '-'.toUInt8 ∨ isDigit b) (hc : c ≠ '-'.toUInt8)
    (hdigit : isDigit c = false) : b ≠ c := by
  intro h
  subst h
  simp [hc, hdigit] at hb

theorem isBlank_of_startsInteger {b : UInt8} (hb : b = '-'.toUInt8 ∨ isDigit b) : Document.isBlank b = false := by
  have hne := fun c => ne_of_startsInteger (c := c) hb
  simp [Document.isBlank, hne 0x20 (by decide) (by decide), hne 0x0a (by decide) (by decide),
    hne 0x0d (by decide) (by decide), hne 0x09 (by decide) (by decide)]

theorem print_eq_cons {depth : Nat} {j : Json} (h : Plain depth j) :
    ∃ b bs, j.print = b :: bs ∧ Document.isBlank b = false ∧ b ≠ ']'.toUInt8 := by
  cases h with
  | null => exact ⟨_, _, rfl, by decide, by decide⟩
  | bool b => cases b <;> exact ⟨_, _, rfl, by decide, by decide⟩
  | @integer _ n _ =>
    obtain ⟨b, bs, hn, hb⟩ := printNumber_eq_cons n
    exact ⟨b, bs, hn, isBlank_of_startsInteger hb, ne_of_startsInteger hb (by decide) (by decide)⟩
  | string s => exact ⟨_, _, rfl, by decide, by decide⟩
  | @array _ items _ => cases items <;> exact ⟨_, _, rfl, by decide, by decide⟩
  | @object _ members _ => cases members <;> exact ⟨_, _, rfl, by decide, by decide⟩

namespace Document

theorem skipBlanks_cons {b : UInt8} (hb : isBlank b = false) (text : Bytes) : skipBlanks (b :: text) = b :: text := by
  simp [skipBlanks, hb]

theorem passWord_append (letters text : Bytes) : passWord letters (letters ++ text) = .ok text := by
  induction letters with
  | nil => rfl
  | cons a letters ih => simp [passWord, ih]

theorem scanWord_append (value : Document) (letters : String) (text : Bytes) :
    scanWord value letters (Bytes.ofString letters ++ text) = (value, some text) := by
  simp [scanWord, passWord_append]

/-- With fuel for its text a value is scanned, and whatever follows it is
left. -/
def Scans (j : Json) : Prop :=
  ∀ fuel text, 2 * j.print.length ≤ fuel → EndsNumber text → scan fuel (j.print ++ text) = (j.document, some text)

theorem scan_null (fuel : Nat) (text : Bytes) : scan (fuel + 1) (Json.null.print ++ text) = (.null, some text) := by
  have hprint : Json.null.print ++ text = 'n'.toUInt8 :: (Bytes.ofString "ull" ++ text) := rfl
  rw [hprint, scan, skipBlanks_cons (by decide)]
  simp [scanWord_append]

theorem scan_bool (b : Bool) (fuel : Nat) (text : Bytes) :
    scan (fuel + 1) ((Json.bool b).print ++ text) = (.bool b, some text) := by
  cases b with
  | true =>
    have hprint : (Json.bool true).print ++ text = 't'.toUInt8 :: (Bytes.ofString "rue" ++ text) := rfl
    have hn : 't'.toUInt8 ≠ 'n'.toUInt8 := by decide
    rw [hprint, scan, skipBlanks_cons (by decide)]
    simp [hn, scanWord_append]
  | false =>
    have hprint : (Json.bool false).print ++ text = 'f'.toUInt8 :: (Bytes.ofString "alse" ++ text) := rfl
    have hn : 'f'.toUInt8 ≠ 'n'.toUInt8 := by decide
    have ht : 'f'.toUInt8 ≠ 't'.toUInt8 := by decide
    rw [hprint, scan, skipBlanks_cons (by decide)]
    simp [hn, ht, scanWord_append]

theorem scan_integer {n : Int} (h : IsWord n) (fuel : Nat) {text : Bytes} (ht : EndsNumber text) :
    scan (fuel + 1) (printNumber (.integer n) ++ text) = (.number (.read (.integer n)), some text) := by
  have hread := readNumber_integer h ht
  have hpass := passNumber_integer n ht
  obtain ⟨b, bs, hn, hb⟩ := printNumber_eq_cons n
  have hne := fun c => ne_of_startsInteger (c := c) hb
  have hsign : (b = '-'.toUInt8 || isDigit b) = true := by simpa using hb
  rw [hn, List.cons_append] at hread hpass ⊢
  rw [scan, skipBlanks_cons (isBlank_of_startsInteger hb)]
  simp only [if_neg (hne 'n'.toUInt8 (by decide) (by decide)), if_neg (hne 't'.toUInt8 (by decide) (by decide)),
    if_neg (hne 'f'.toUInt8 (by decide) (by decide)), hsign, if_true, hread, hpass]
  rfl

theorem scan_string (s : String) (fuel : Nat) (text : Bytes) :
    scan (fuel + 1) (printString s ++ text) = (.string (.read s), some text) := by
  rw [printString_append, scan, skipBlanks_cons (by decide)]
  simp only [readString_unquoted, passString_unquoted]
  rfl

theorem scanItems_print {j : Json} {items : List Json} (hj : Scans j) (hitems : ∀ i ∈ items, Scans i) :
    ∀ fuel text, 2 * (j.print ++ printItems items).length ≤ fuel →
      scanItems fuel (j.print ++ printItems items ++ text) = (documents (j :: items), .ok text) := by
  induction items generalizing j with
  | nil =>
    intro fuel text hfuel
    simp only [List.length_append, printItems, List.length_singleton] at hfuel
    obtain ⟨fuel, rfl⟩ := Nat.exists_eq_add_one_of_ne_zero (n := fuel) (by omega)
    have hend : printItems [] ++ text = ']'.toUInt8 :: text := rfl
    rw [List.append_assoc, hend, scanItems, hj fuel _ (by omega) (endsNumber_cons (by decide) text)]
    simp only [skipBlanks_cons (b := ']'.toUInt8) (by decide)]
    rfl
  | cons i items ih =>
    intro fuel text hfuel
    simp only [List.length_append, printItems, List.length_cons] at hfuel
    obtain ⟨fuel, rfl⟩ := Nat.exists_eq_add_one_of_ne_zero (n := fuel) (by omega)
    have hrest := ih (hitems i List.mem_cons_self) (fun i' hi' => hitems i' (List.mem_cons_of_mem i hi')) fuel text
      (by simp only [List.length_append]; omega)
    have hnext : printItems (i :: items) ++ text = ','.toUInt8 :: (i.print ++ printItems items ++ text) := rfl
    rw [List.append_assoc, hnext, scanItems, hj fuel _ (by omega) (endsNumber_cons (by decide) _)]
    simp only [skipBlanks_cons (b := ','.toUInt8) (by decide), hrest]
    rfl

theorem scanMembers_print (name : String) {j : Json} {members : List (String × Json)} (hj : Scans j)
    (hmembers : ∀ m ∈ members, Scans m.2) :
    ∀ fuel text, 2 * (j.print ++ printMembers members).length + 2 ≤ fuel →
      scanMembers fuel (unquoted name (':'.toUInt8 :: (j.print ++ printMembers members ++ text))) =
        (memberDocuments ((name, j) :: members), .ok text) := by
  induction members generalizing name j with
  | nil =>
    intro fuel text hfuel
    simp only [List.length_append, printMembers, List.length_singleton] at hfuel
    obtain ⟨fuel, rfl⟩ := Nat.exists_eq_add_one_of_ne_zero (n := fuel) (by omega)
    have hend : printMembers [] ++ text = '\x7d'.toUInt8 :: text := rfl
    rw [List.append_assoc, hend, scanMembers, readString_unquoted, passString_unquoted]
    simp only [scanLexeme, Except.toOption, skipBlanks_cons (b := ':'.toUInt8) (by decide)]
    rw [hj fuel _ (by omega) (endsNumber_cons (by decide) text)]
    simp only [skipBlanks_cons (b := '\x7d'.toUInt8) (by decide)]
    rfl
  | cons m members ih =>
    intro fuel text hfuel
    simp only [List.length_append, printMembers, List.length_cons] at hfuel
    obtain ⟨fuel, rfl⟩ := Nat.exists_eq_add_one_of_ne_zero (n := fuel) (by omega)
    have hrest := ih m.1 (hmembers m List.mem_cons_self)
      (fun m' hm' => hmembers m' (List.mem_cons_of_mem m hm')) fuel text (by simp only [List.length_append]; omega)
    have hnext : printMembers (m :: members) ++ text =
        ','.toUInt8 :: quoteByte :: unquoted m.1 (':'.toUInt8 :: (m.2.print ++ printMembers members ++ text)) := by
      simp [printMembers, printString, unquoted]
    rw [List.append_assoc, hnext, scanMembers, readString_unquoted, passString_unquoted]
    simp only [scanLexeme, Except.toOption, skipBlanks_cons (b := ':'.toUInt8) (by decide)]
    rw [hj fuel _ (by omega) (endsNumber_cons (by decide) _)]
    simp only [skipBlanks_cons (b := ','.toUInt8) (by decide), skipBlanks_cons (b := quoteByte) (by decide), hrest]
    rfl

theorem scan_array {j : Json} {items : List Json} {depth : Nat} (hp : Plain depth j) (hj : Scans j)
    (hitems : ∀ i ∈ items, Scans i) {fuel : Nat} (hfuel : 2 * (Json.array (j :: items)).print.length ≤ fuel + 1)
    (text : Bytes) :
    scan (fuel + 1) ((Json.array (j :: items)).print ++ text) = (.array (documents (j :: items)) none, some text) := by
  obtain ⟨b, bs, hb, hblank, hclose⟩ := print_eq_cons hp
  simp only [Json.print, List.length_cons, List.length_append] at hfuel
  have hrest := scanItems_print hj hitems fuel text (by simp only [List.length_append]; omega)
  have hprint : (Json.array (j :: items)).print ++ text = '['.toUInt8 :: (j.print ++ printItems items ++ text) := rfl
  rw [hb, List.cons_append, List.cons_append] at hrest
  rw [hprint, hb, List.cons_append, List.cons_append, scan, skipBlanks_cons (by decide)]
  simp only [skipBlanks_cons hblank, if_neg hclose, hrest]
  rfl

theorem scan_object {name : String} {j : Json} {members : List (String × Json)} (hj : Scans j)
    (hmembers : ∀ m ∈ members, Scans m.2) {fuel : Nat}
    (hfuel : 2 * (Json.object ((name, j) :: members)).print.length ≤ fuel + 1) (text : Bytes) :
    scan (fuel + 1) ((Json.object ((name, j) :: members)).print ++ text) =
      (.object (memberDocuments ((name, j) :: members)) none, some text) := by
  simp only [Json.print, List.length_cons, List.length_append] at hfuel
  have hrest := scanMembers_print name hj hmembers fuel text (by simp only [List.length_append]; omega)
  have hprint : (Json.object ((name, j) :: members)).print ++ text =
      '\x7b'.toUInt8 :: quoteByte :: unquoted name (':'.toUInt8 :: (j.print ++ printMembers members ++ text)) := by
    simp [Json.print, printString, unquoted]
  rw [hprint, scan, skipBlanks_cons (by decide)]
  simp only [skipBlanks_cons (b := quoteByte) (by decide), hrest]
  rfl

theorem scans_of_succ {depth : Nat} {j : Json} (h : Plain depth j)
    (hscan : ∀ fuel text, 2 * j.print.length ≤ fuel + 1 → EndsNumber text →
      scan (fuel + 1) (j.print ++ text) = (j.document, some text)) : Scans j := by
  intro fuel text hfuel ht
  obtain ⟨b, bs, hb, -⟩ := print_eq_cons h
  obtain ⟨fuel, rfl⟩ := Nat.exists_eq_add_one_of_ne_zero (n := fuel) (by simp [hb] at hfuel; omega)
  exact hscan fuel text hfuel ht

theorem scans_of_plain {depth : Nat} {j : Json} (h : Plain depth j) : Scans j := by
  refine scans_of_succ h ?_
  induction h with
  | null => exact fun fuel text _ _ => scan_null fuel text
  | bool b => exact fun fuel text _ _ => scan_bool b fuel text
  | integer h => exact fun fuel text _ ht => scan_integer h fuel ht
  | string s => exact fun fuel text _ _ => scan_string s fuel text
  | @array _ items h ih =>
    intro fuel text hfuel _
    have hscans : ∀ i ∈ items, Scans i := fun i hi => scans_of_succ (h i hi) (ih i hi)
    cases items with
    | nil => rfl
    | cons j items =>
      exact scan_array (h j List.mem_cons_self) (hscans j List.mem_cons_self)
        (fun i hi => hscans i (List.mem_cons_of_mem j hi)) hfuel text
  | @object _ members h ih =>
    intro fuel text hfuel _
    have hscans : ∀ m ∈ members, Scans m.2 := fun m hm => scans_of_succ (h m hm) (ih m hm)
    cases members with
    | nil => rfl
    | cons m members =>
      exact scan_object (hscans m List.mem_cons_self) (fun n hn => hscans n (List.mem_cons_of_mem m hn)) hfuel text

theorem ofBytes_print {depth : Nat} {j : Json} (h : Plain depth j) : ofBytes j.print = (j.document, some []) := by
  have hscan := scans_of_plain h (2 * j.print.length + 2) [] (by omega) nofun
  rwa [List.append_nil] at hscan

/-! ## Values -/

theorem values_documents {depth : Nat} {items : List Json} (h : ∀ j ∈ items, j.document.value depth = .ok j) :
    values (documents items) depth = .ok items := by
  induction items with
  | nil => rfl
  | cons j items ih =>
    have hitems := ih fun i hi => h i (List.mem_cons_of_mem j hi)
    simp [documents, values, h j List.mem_cons_self, hitems, bind, Except.bind, pure, Except.pure]

theorem memberValues_memberDocuments {depth : Nat} {members : List (String × Json)}
    (h : ∀ m ∈ members, m.2.document.value depth = .ok m.2) :
    memberValues (memberDocuments members) depth = .ok members := by
  induction members with
  | nil => rfl
  | cons m members ih =>
    have hmembers := ih fun n hn => h n (List.mem_cons_of_mem m hn)
    simp [memberDocuments, memberValues, Lexeme.read, h m List.mem_cons_self, hmembers, bind, Except.bind, pure,
      Except.pure]

theorem value_document {depth : Nat} {j : Json} (h : Plain depth j) : j.document.value depth = .ok j := by
  induction h with
  | null | bool _ | integer _ | string _ => rfl
  | array _ ih => simp [document, value, values_documents ih, check, bind, Except.bind, pure, Except.pure]
  | object _ ih => simp [document, value, memberValues_memberDocuments ih, check, bind, Except.bind, pure, Except.pure]

end Document

end OrderDesk.Json

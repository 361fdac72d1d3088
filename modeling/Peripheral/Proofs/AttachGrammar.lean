import Mathlib.Data.List.TakeWhile
import Peripheral.CommandLine.AttachOption

/-!
# The grammar of the attach option

An option is a name, the first equals sign and a path. The name is a device and the digits that end it, which stand
for a unit.

* `OptionParts` : name and path of an option; `DigitRun` : the longest run of digits that ends a name
  (`DigitRun.exists_run`, `DigitRun.unique`);
* `byteSplit` : a name is split where a scan of its bytes from the end leaves the digits (`DigitRun.byteSplit_eq`):
  no byte of another character is taken for a digit;
* `checkedNumber` : digits are read one by one, until the number does not fit (`checkedNumber_eq`);
* `ofParts_eq_ok_iff` : what becomes of a name and a path;
* `attach_option_has_grammar` : **an option is accepted exactly when the grammar has it**, its entry is the one the
  grammar gives, and what is printed is read back.
-/

namespace Peripheral

/-! ## Names and digits -/

/-- An option is the name before its first equals sign and the path after it. -/
structure OptionParts (arg name path : String) : Prop where
  text : arg = name ++ "=" ++ path
  first : '=' ∉ name.toList

/-- A name is a device and the longest run of digits at its end. -/
structure DigitRun (name device digits : String) : Prop where
  text : name = device ++ digits
  digits : ∀ c ∈ digits.toList, c.isDigit = true
  maximal : ∀ c ∈ device.toList.getLast?, c.isDigit = false

def numberOf (digits : String) : Nat := Nat.ofDigitChars 10 digits.toList 0

theorem decimalValue_eq (digits : List Char) : decimalValue digits = Nat.ofDigitChars 10 digits 0 := by
  have step : (fun (n : Nat) (c : Char) => n * 10 + (c.toNat - '0'.toNat)) =
      fun n c => 10 * n + (c.toNat - '0'.toNat) := by
    funext n c
    omega
  rw [decimalValue, step, Nat.ofDigitChars_eq_foldl]

/-- From the end of `init ++ run`, exactly the run is taken, if it passes and the element before it does not. -/
theorem takeWhile_reverse_append {α : Type} {p : α → Bool} {init run : List α} (passes : ∀ a ∈ run, p a = true)
    (stops : ∀ a ∈ init.getLast?, p a = false) : (init ++ run).reverse.takeWhile p = run.reverse := by
  rw [List.reverse_append, List.takeWhile_append_of_pos (fun a mem => passes a (List.mem_reverse.mp mem))]
  rcases List.eq_nil_or_concat init with rfl | ⟨front, last, rfl⟩
  · simp
  · have stop := stops last (by simp)
    simp [stop]

namespace DigitRun

variable {name device digits : String}

theorem exists_run (name : String) :
    DigitRun name (String.ofList (splitDigits name.toList).1) (String.ofList (splitDigits name.toList).2) where
  text := by
    have whole := List.takeWhile_append_dropWhile (p := Char.isDigit) (l := name.toList.reverse)
    rw [← String.toList_inj]
    simp only [String.toList_append, String.toList_ofList, splitDigits]
    rw [← List.reverse_append, whole, List.reverse_reverse]
  digits := by
    intro c mem
    rw [String.toList_ofList] at mem
    exact List.all_eq_true.mp List.all_takeWhile c (List.mem_reverse.mp mem)
  maximal := by
    intro c last
    have stops := List.head?_dropWhile_not Char.isDigit name.toList.reverse
    rw [String.toList_ofList, splitDigits, List.getLast?_reverse] at last
    rw [Option.mem_def.mp last] at stops
    exact stops

theorem splitDigits_eq (run : DigitRun name device digits) :
    splitDigits name.toList = (device.toList, digits.toList) := by
  have taken := takeWhile_reverse_append run.digits run.maximal
  have whole := List.takeWhile_append_dropWhile (p := Char.isDigit) (l := (device.toList ++ digits.toList).reverse)
  rw [taken, List.reverse_append] at whole
  have left := List.append_cancel_left whole
  rw [run.text, String.toList_append, splitDigits, taken, List.reverse_append, left, List.reverse_reverse,
    List.reverse_reverse]

theorem unique (run : DigitRun name device digits) {device' digits' : String}
    (other : DigitRun name device' digits') : device' = device ∧ digits' = digits := by
  have same := other.splitDigits_eq.symm.trans run.splitDigits_eq
  exact ⟨String.toList_inj.mp (congrArg Prod.fst same), String.toList_inj.mp (congrArg Prod.snd same)⟩

theorem device_eq_empty_iff (run : DigitRun name device digits) :
    device = "" ↔ ∀ c ∈ name.toList, c.isDigit = true := by
  constructor
  · rintro rfl c mem
    rw [run.text, String.toList_append, String.toList_empty, List.nil_append] at mem
    exact run.digits c mem
  · intro only
    rw [← String.toList_eq_nil_iff, ← List.getLast?_eq_none_iff, Option.eq_none_iff_forall_not_mem]
    intro c last
    have mem : c ∈ name.toList := by
      rw [run.text, String.toList_append]
      exact List.mem_append_left _ (List.mem_of_getLast? last)
    exact Bool.noConfusion ((only c mem).symm.trans (run.maximal c last))

end DigitRun

/-! ## Bytes of a name -/

def textBytes (text : String) : List UInt8 := text.toByteArray.data.toList

def isDigitByte (byte : UInt8) : Bool := 48 ≤ byte && byte ≤ 57

/-- A name in bytes is cut before the digits that a scan from its end finds. -/
def byteSplit (name : List UInt8) : List UInt8 × List UInt8 :=
  name.splitAt (name.length - (name.reverse.takeWhile isDigitByte).length)

theorem textBytes_append (a b : String) : textBytes (a ++ b) = textBytes a ++ textBytes b := by
  rw [textBytes, String.toByteArray_append, ByteArray.data_append, Array.toList_append]
  rfl

theorem textBytes_eq (text : String) : textBytes text = text.toList.flatMap String.utf8EncodeChar := by
  have encoded : text.toByteArray = text.toList.utf8Encode := by
    rw [← String.toByteArray_ofList, String.ofList_toList]
  rw [textBytes, encoded, List.utf8Encode, List.toList_data_toByteArray]

theorem isDigitByte_ofNat {n : Nat} (fits : n < 256) :
    isDigitByte (UInt8.ofNat n) = (decide (48 ≤ n) && decide (n ≤ 57)) := by
  have value : (UInt8.ofNat n).toNat = n := by
    rw [UInt8.toNat_ofNat']
    omega
  simp only [isDigitByte, UInt8.le_iff_toNat_le, value]
  rfl

theorem isDigit_eq (c : Char) : c.isDigit = (decide (48 ≤ c.val.toNat) && decide (c.val.toNat ≤ 57)) := by
  simp only [Char.isDigit, ge_iff_le, UInt32.le_iff_toNat_le]
  rfl

theorem digitBytes_of_digit {c : Char} (digit : c.isDigit = true) :
    ∀ byte ∈ String.utf8EncodeChar c, isDigitByte byte = true := by
  rw [isDigit_eq, Bool.and_eq_true, decide_eq_true_eq, decide_eq_true_eq] at digit
  intro byte mem
  rw [String.utf8EncodeChar, if_pos (by omega), List.mem_singleton] at mem
  rw [mem, isDigitByte_ofNat (by omega)]
  simpa using digit

/-- The last byte of any other character is no digit: it is the character itself, or it is above all of ASCII. -/
theorem lastByte_of_nondigit {c : Char} (other : c.isDigit = false) :
    ∀ byte ∈ (String.utf8EncodeChar c).getLast?, isDigitByte byte = false := by
  have above : ∀ n : Nat, isDigitByte (UInt8.ofNat (n % 64 + 128)) = false := by
    intro n
    rw [isDigitByte_ofNat (by omega)]
    simp
  intro byte last
  unfold String.utf8EncodeChar at last
  dsimp only at last
  split at last
  · rename_i ascii
    rw [isDigit_eq] at other
    obtain rfl : UInt8.ofNat c.val.toNat = byte := by simpa using last
    rw [isDigitByte_ofNat (by omega)]
    exact other
  · split at last
    · obtain rfl : UInt8.ofNat (c.val.toNat % 64 + 128) = byte := by simpa using last
      exact above _
    · split at last
      · obtain rfl : UInt8.ofNat (c.val.toNat % 64 + 128) = byte := by simpa using last
        exact above _
      · obtain rfl : UInt8.ofNat (c.val.toNat % 64 + 128) = byte := by simpa using last
        exact above _

/-- The scan over bytes finds the run of digits. -/
theorem DigitRun.byteSplit_eq {name device digits : String} (run : DigitRun name device digits) :
    byteSplit (textBytes name) = (textBytes device, textBytes digits) := by
  have passes : ∀ byte ∈ textBytes digits, isDigitByte byte = true := by
    intro byte mem
    rw [textBytes_eq] at mem
    obtain ⟨c, among, within⟩ := List.mem_flatMap.mp mem
    exact digitBytes_of_digit (run.digits c among) byte within
  have stops : ∀ byte ∈ (textBytes device).getLast?, isDigitByte byte = false := by
    intro byte last
    rw [textBytes_eq] at last
    rcases List.eq_nil_or_concat device.toList with none | ⟨front, c, ends⟩
    · simp [none] at last
    · have other : c.isDigit = false := run.maximal c (by simp [ends])
      refine lastByte_of_nondigit other byte ?_
      have some : String.utf8EncodeChar c ≠ [] := String.utf8EncodeChar_ne_nil
      rw [ends] at last
      simpa [List.getLast?_append, List.getLast?_eq_some_getLast some] using last
  rw [byteSplit, run.text, textBytes_append, takeWhile_reverse_append passes stops, List.length_reverse,
    List.length_append, Nat.add_sub_cancel, List.splitAt_eq, List.take_left, List.drop_left]

/-! ## Digits read one by one -/

/-- One more digit of a number of 64 bits, if both its product and its sum have room. -/
def checkedDigit (n : Nat) (c : Char) : Option Nat :=
  if Nat.pow 2 64 ≤ n * 10 then none
  else if Nat.pow 2 64 ≤ n * 10 + (c.toNat - '0'.toNat) then none
  else some (n * 10 + (c.toNat - '0'.toNat))

/-- Digits are read from the front, and refused as soon as the number does not fit. -/
def checkedNumber (digits : String) : Option Nat := digits.toList.foldlM checkedDigit 0

theorem le_ofDigitChars (digits : List Char) (n : Nat) : n ≤ Nat.ofDigitChars 10 digits n := by
  induction digits generalizing n with
  | nil => exact Nat.le_refl n
  | cons c rest ih =>
    rw [Nat.ofDigitChars_cons]
    have grown := ih (10 * n + (c.toNat - '0'.toNat))
    omega

/-- By induction on the digits: a number that stops fitting never fits again. -/
theorem foldlM_checkedDigit (digits : List Char) {n : Nat} (fits : n < Nat.pow 2 64) :
    digits.foldlM checkedDigit n =
      if Nat.ofDigitChars 10 digits n < Nat.pow 2 64 then some (Nat.ofDigitChars 10 digits n) else none := by
  induction digits generalizing n with
  | nil => exact (if_pos fits).symm
  | cons c rest ih =>
    rw [Nat.ofDigitChars_cons, List.foldlM_cons, Nat.mul_comm 10 n, checkedDigit]
    have grown := le_ofDigitChars rest (n * 10 + (c.toNat - '0'.toNat))
    split
    · rw [if_neg (by omega)]
      rfl
    · split
      · rw [if_neg (by omega)]
        rfl
      · exact ih (by omega)

theorem checkedNumber_eq (digits : String) :
    checkedNumber digits = if numberOf digits < Nat.pow 2 64 then some (numberOf digits) else none :=
  foldlM_checkedDigit digits.toList (by decide)

/-! ## Options -/

def AttachEntry.spelled (device digits path : String) : AttachEntry where
  device := device.toUpper
  unit := UInt64.ofNat (numberOf digits)
  path := path

theorem OptionParts.ofOption_eq {arg name path : String} (parts : OptionParts arg name path) :
    AttachEntry.ofOption arg = AttachEntry.ofParts name.toList path.toList := by
  have before : ∀ c ∈ name.toList, decide (c ≠ '=') = true := by
    intro c mem
    exact decide_eq_true fun same => parts.first (same ▸ mem)
  have text : arg.toList = name.toList ++ '=' :: path.toList := by
    rw [parts.text, String.toList_append, String.toList_append, List.append_assoc]
    rfl
  rw [AttachEntry.ofOption, text, List.dropWhile_append_of_pos before, List.takeWhile_append_of_pos before]
  simp

theorem OptionParts.exists_parts {arg : String} (separated : '=' ∈ arg.toList) :
    ∃ name path, OptionParts arg name path := by
  obtain ⟨before, after, text, first⟩ := List.eq_append_cons_of_mem separated
  refine ⟨String.ofList before, String.ofList after, ?_, ?_⟩
  · rw [← String.toList_inj, text]
    simp
  · rwa [String.toList_ofList]

theorem ofOption_of_no_separator {arg : String} (unseparated : '=' ∉ arg.toList) :
    AttachEntry.ofOption arg = .error .noSeparator := by
  have none : arg.toList.dropWhile (· ≠ '=') = [] := by
    rw [List.dropWhile_eq_nil_iff]
    intro c mem
    exact decide_eq_true fun same => unseparated (same ▸ mem)
  rw [AttachEntry.ofOption, none]

/-- A name and a path give an entry when there are a device, a path and a unit of 64 bits. -/
theorem ofParts_eq_ok_iff {name device digits path : String} (run : DigitRun name device digits)
    (entry : AttachEntry) :
    AttachEntry.ofParts name.toList path.toList = .ok entry ↔
      path ≠ "" ∧ device ≠ "" ∧ numberOf digits < Nat.pow 2 64 ∧ entry = AttachEntry.spelled device digits path := by
  have upper : String.ofList (device.toList.map Char.toUpper) = device.toUpper := by
    rw [← String.toList_inj, String.toUpper, String.toList_map, String.toList_ofList]
  have empty : ∀ text : String, text.toList.isEmpty = true ↔ text = "" := by
    intro text
    rw [List.isEmpty_iff, String.toList_eq_nil_iff]
  have value : decimalValue digits.toList = numberOf digits := decimalValue_eq digits.toList
  unfold AttachEntry.ofParts
  rw [run.splitDigits_eq]
  dsimp only
  rw [upper, String.ofList_toList, value]
  split
  · rename_i none
    simp [(empty path).mp none]
  · rename_i present
    split
    · rename_i none
      simp [(empty device).mp none]
    · rename_i named
      rw [empty] at present named
      split
      · rename_i large
        have large : ¬ numberOf digits < Nat.pow 2 64 := Nat.not_lt.mpr large
        simp [large]
      · rename_i small
        have small : numberOf digits < Nat.pow 2 64 := Nat.not_le.mp small
        simp [present, named, small, AttachEntry.spelled, eq_comm]

theorem digitRun_printed {device : String} (ends : ∀ c ∈ device.toList.getLast?, c.isDigit = false) (n : Nat) :
    DigitRun (device ++ toString n) device (toString n) ∧ numberOf (toString n) = n := by
  have printed : (toString n).toList = Nat.toDigits 10 n := by
    rw [Nat.toString_eq_ofList_toDigits, String.toList_ofList]
  refine ⟨⟨rfl, ?_, ends⟩, ?_⟩
  · intro c mem
    rw [printed] at mem
    exact Nat.isDigit_of_mem_toDigits (by decide) (by decide) mem
  · rw [numberOf, printed]
    exact Nat.ofDigitChars_ten_toDigits

/-- An option is accepted exactly when it has an equals sign, a path after the first one, and before it a name that is
not made of digits only and whose last digits stand for a number of 64 bits. Its entry has that path, that number as
its unit (0 without digits) and the characters before them in capitals as its device; the bytes of the name are cut at
the same place, and its digits can be read one by one. So a device, a printed unit and a path are read back. -/
theorem attach_option_has_grammar :
    (∀ arg : String, (∃ entry, AttachEntry.ofOption arg = .ok entry) ↔
      ∃ name path, OptionParts arg name path ∧ path ≠ "" ∧ (∃ c ∈ name.toList, c.isDigit = false) ∧
        ∃ device digits, DigitRun name device digits ∧ numberOf digits < Nat.pow 2 64) ∧
    (∀ (arg : String) (entry : AttachEntry), AttachEntry.ofOption arg = .ok entry →
      ∀ name path device digits, OptionParts arg name path → DigitRun name device digits →
        entry.path = path ∧ entry.unit.toNat = numberOf digits ∧ (digits = "" → entry.unit = 0) ∧
          entry.device = device.toUpper ∧ byteSplit (textBytes name) = (textBytes device, textBytes digits) ∧
          checkedNumber digits = some entry.unit.toNat) ∧
    (∀ (device path : String) (n : Nat), device ≠ "" → '=' ∉ device.toList →
      (∀ c ∈ device.toList.getLast?, c.isDigit = false) → n < Nat.pow 2 64 → path ≠ "" →
        AttachEntry.ofOption (device ++ toString n ++ "=" ++ path) =
          .ok { device := device.toUpper, unit := UInt64.ofNat n, path := path }) := by
  have named : ∀ {name device digits : String}, DigitRun name device digits →
      (device ≠ "" ↔ ∃ c ∈ name.toList, c.isDigit = false) := by
    intro name device digits run
    rw [ne_eq, run.device_eq_empty_iff]
    simp
  refine ⟨?_, ?_, ?_⟩
  · intro arg
    constructor
    · rintro ⟨entry, accepted⟩
      by_cases separated : '=' ∈ arg.toList
      · obtain ⟨name, path, parts⟩ := OptionParts.exists_parts separated
        have run := DigitRun.exists_run name
        rw [parts.ofOption_eq, ofParts_eq_ok_iff run] at accepted
        obtain ⟨there, device, small, -⟩ := accepted
        exact ⟨name, path, parts, there, (named run).mp device, _, _, run, small⟩
      · rw [ofOption_of_no_separator separated] at accepted
        exact nomatch accepted
    · rintro ⟨name, path, parts, there, other, device, digits, run, small⟩
      refine ⟨AttachEntry.spelled device digits path, ?_⟩
      rw [parts.ofOption_eq, ofParts_eq_ok_iff run]
      exact ⟨there, (named run).mpr other, small, rfl⟩
  · intro arg entry accepted name path device digits parts run
    rw [parts.ofOption_eq, ofParts_eq_ok_iff run] at accepted
    obtain ⟨-, -, small, rfl⟩ := accepted
    have unit : (AttachEntry.spelled device digits path).unit.toNat = numberOf digits :=
      UInt64.toNat_ofNat_of_lt' small
    refine ⟨rfl, unit, ?_, rfl, run.byteSplit_eq, ?_⟩
    · rintro rfl
      rfl
    · rw [checkedNumber_eq, if_pos small, unit]
  · intro device path n nonempty unequal ends small there
    obtain ⟨run, value⟩ := digitRun_printed ends n
    have parts : OptionParts (device ++ toString n ++ "=" ++ path) (device ++ toString n) path := by
      refine ⟨rfl, ?_⟩
      rw [String.toList_append, List.mem_append, not_or]
      exact ⟨unequal, fun mem => absurd (run.digits '=' mem) (by decide)⟩
    rw [parts.ofOption_eq, ofParts_eq_ok_iff run, value]
    exact ⟨there, nonempty, small, by rw [AttachEntry.spelled, value]⟩

/-- A drive number is read back from the option that is printed for it, and leading zeros do not count. -/
theorem drive_seven_read_back :
    AttachEntry.ofOption "dk7=a=b" = .ok { device := "DK", unit := 7, path := "a=b" } ∧
      ∃ entry, AttachEntry.ofOption "dk007=b" = .ok entry ∧ entry.unit.toNat = 7 := by
  obtain ⟨accepted, entries, printed⟩ := attach_option_has_grammar
  constructor
  · have upper : "dk".toUpper = "DK" := by
      rw [← String.toList_inj, String.toUpper, String.toList_map]
      decide
    have read := printed "dk" "a=b" 7 (by decide) (by decide) (by simp) (by decide) (by decide)
    rw [upper] at read
    exact read
  · have parts : OptionParts "dk007=b" "dk007" "b" := ⟨rfl, by decide⟩
    have run : DigitRun "dk007" "dk" "007" := ⟨rfl, by simp, by simp⟩
    obtain ⟨entry, given⟩ := (accepted "dk007=b").mpr
      ⟨"dk007", "b", parts, by decide, ⟨'d', by decide, by decide⟩, "dk", "007", run, by decide⟩
    exact ⟨entry, given, (entries "dk007=b" entry given _ _ _ _ parts run).2.1⟩

end Peripheral

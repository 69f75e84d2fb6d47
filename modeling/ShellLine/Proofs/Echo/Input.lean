import Mathlib.Data.List.Basic
import Mathlib.Data.List.TakeWhile
import ShellLine.Echo.Input

/-!
# Lines are cut and decoded one by one

A line feed is a byte of its own in UTF-8. So an input can be cut at every line feed
before anything is decoded, and a line that is no text does not change how the lines in
front of it are read.
-/

namespace ShellLine.Echo

/-! ## Bytes of a text -/

/-- A text in UTF-8. -/
def utf8 (text : String) : List UInt8 := text.toUTF8.data.toList

theorem utf8_eq_flatMap (text : String) :
    utf8 text = text.toList.flatMap String.utf8EncodeChar := by
  rw [utf8, String.toUTF8, ← String.utf8Encode_toList, List.utf8Encode,
    List.toList_data_toByteArray]

theorem mod_eq_of_lineFeed_eq {n : Nat} (h : lineFeed = UInt8.ofNat n) : n % 256 = 10 := by
  have hbyte := congrArg UInt8.toNat h
  rw [UInt8.toNat_ofNat'] at hbyte
  exact hbyte.symm

/-- No other character has a line feed among its bytes: all bytes are above 127 where there are
several of them. -/
theorem eq_newline_of_lineFeed_mem {c : Char} (h : lineFeed ∈ String.utf8EncodeChar c) :
    c = '\n' := by
  rw [String.utf8EncodeChar.eq_1] at h
  split at h
  · next hsmall =>
    have hcode := mod_eq_of_lineFeed_eq (List.mem_singleton.1 h)
    have hvalue : c.toNat = '\n'.toNat := by
      change c.val.toNat = 10
      omega
    exact Char.toNat_inj.1 hvalue
  · have hmany : ∃ n, lineFeed = UInt8.ofNat n ∧ 128 ≤ n ∧ n < 256 := by
      split at h
      · simp only [List.mem_cons, List.not_mem_nil, or_false] at h
        rcases h with h | h
        all_goals exact ⟨_, h, by omega, by omega⟩
      · split at h
        · simp only [List.mem_cons, List.not_mem_nil, or_false] at h
          rcases h with h | h | h
          all_goals exact ⟨_, h, by omega, by omega⟩
        · simp only [List.mem_cons, List.not_mem_nil, or_false] at h
          rcases h with h | h | h | h
          all_goals exact ⟨_, h, by omega, by omega⟩
    obtain ⟨n, hn, hlow, hhigh⟩ := hmany
    have hcode := mod_eq_of_lineFeed_eq hn
    omega

theorem lineFeed_not_mem_utf8 {text : String} (h : '\n' ∉ text.toList) : lineFeed ∉ utf8 text := by
  rw [utf8_eq_flatMap, List.mem_flatMap]
  rintro ⟨c, hc, hfeed⟩
  rw [eq_newline_of_lineFeed_mem hfeed] at hc
  exact h hc

theorem fromUTF8?_utf8 (text : String) : String.fromUTF8? ⟨(utf8 text).toArray⟩ = some text := by
  have hbytes : (⟨(utf8 text).toArray⟩ : ByteArray) = text.toByteArray := by
    rw [utf8, Array.toArray_toList]
    rfl
  rw [hbytes, String.fromUTF8?, dif_pos text.isValidUTF8]
  rfl

theorem utf8_of_fromUTF8? {bytes : List UInt8} {text : String}
    (h : String.fromUTF8? ⟨bytes.toArray⟩ = some text) : bytes = utf8 text := by
  unfold String.fromUTF8? at h
  split at h
  · cases h
    rfl
  · cases h

theorem utf8_injective {a b : String} (h : utf8 a = utf8 b) : a = b := by
  have hdecode := fromUTF8?_utf8 a
  rw [h, fromUTF8?_utf8] at hdecode
  exact (Option.some.inj hdecode).symm

/-! ## The text of a line -/

theorem dropCarriageReturn_append (text : String) : dropCarriageReturn (text ++ "\r") = text := by
  have hlist : (text ++ "\r").toList = text.toList ++ ['\r'] := String.toList_append
  rw [dropCarriageReturn, hlist, List.getLast?_concat]
  change String.ofList (text.toList ++ ['\r']).dropLast = text
  rw [List.dropLast_concat, String.ofList_toList]

theorem dropCarriageReturn_of_ne {text : String} (h : text.toList.getLast? ≠ some '\r') :
    dropCarriageReturn text = text := by
  unfold dropCarriageReturn
  split
  · next hlast => exact absurd hlast h
  · rfl

/-- A carriage return is blank. -/
theorem allBlank_dropCarriageReturn (text : String) :
    Text.allBlank (dropCarriageReturn text) = Text.allBlank text := by
  unfold dropCarriageReturn
  split
  · next hlast =>
    have hsplit := List.dropLast_append_getLast? '\r' hlast
    have hreturn : ['\r'].all Text.isBlank = true := by decide
    have hall : text.toList.all Text.isBlank = text.toList.dropLast.all Text.isBlank := by
      rw [← hsplit, List.all_append, hreturn, Bool.and_true, List.dropLast_concat]
    rw [Text.allBlank, Text.allBlank, String.toList_ofList, hall]
  · rfl

/-- What is no text in UTF-8 is no line, ended or not. -/
theorem text?_eq_none {bytes : List UInt8} (h : ∀ text, bytes ≠ utf8 text) (terminated : Bool) :
    RawLine.text? ⟨bytes, terminated⟩ = none := by
  rw [RawLine.text?, Option.map_eq_none_iff]
  cases hdecode : String.fromUTF8? ⟨bytes.toArray⟩ with
  | none => rfl
  | some text => exact absurd (utf8_of_fromUTF8? hdecode) (h text)

theorem text?_unended (text : String) : RawLine.text? ⟨utf8 text, false⟩ = some text := by
  rw [RawLine.text?, fromUTF8?_utf8]
  rfl

theorem text?_ended (text : String) :
    RawLine.text? ⟨utf8 text, true⟩ = some (dropCarriageReturn text) := by
  rw [RawLine.text?, fromUTF8?_utf8]
  rfl

/-! ## Cutting -/

theorem ne_lineFeed_of_not_mem {line : List UInt8} (h : lineFeed ∉ line) :
    ∀ byte ∈ line, (byte != lineFeed) = true := by
  intro byte hbyte
  rw [bne_iff_ne]
  rintro rfl
  exact h hbyte

theorem rawLines_of_dropWhile {input behind : List UInt8} {byte : UInt8}
    (h : input.dropWhile (· != lineFeed) = byte :: behind) :
    rawLines input = ⟨input.takeWhile (· != lineFeed), true⟩ :: rawLines behind := by
  cases input with
  | nil => cases h
  | cons first others =>
    rw [rawLines]
    split
    · next hnil =>
      rw [h] at hnil
      cases hnil
    · next hcons =>
      rw [h] at hcons
      cases hcons
      rfl

theorem rawLines_line {line : List UInt8} (h : lineFeed ∉ line) (rest : List UInt8) :
    rawLines (line ++ lineFeed :: rest) = ⟨line, true⟩ :: rawLines rest := by
  have hbytes := ne_lineFeed_of_not_mem h
  have hdrop : (line ++ lineFeed :: rest).dropWhile (· != lineFeed) = lineFeed :: rest := by
    rw [List.dropWhile_append_of_pos hbytes]
    rfl
  have htake : (line ++ lineFeed :: rest).takeWhile (· != lineFeed) = line := by
    rw [List.takeWhile_append_of_pos hbytes]
    exact List.append_nil line
  rw [rawLines_of_dropWhile hdrop, htake]

theorem rawLines_of_not_mem {line : List UInt8} (h : lineFeed ∉ line) (hline : line ≠ []) :
    rawLines line = [⟨line, false⟩] := by
  have hbytes := ne_lineFeed_of_not_mem h
  obtain ⟨first, others, rfl⟩ := List.exists_cons_of_ne_nil hline
  rw [rawLines]
  split
  · rw [List.takeWhile_eq_self_iff.2 hbytes]
  · next hrest =>
    rw [List.dropWhile_eq_nil_iff.2 hbytes] at hrest
    cases hrest

/-- Nothing, or whole lines. -/
inductive Ended : List UInt8 → Prop
  | nil : Ended []
  | line {line behind : List UInt8} (h : lineFeed ∉ line) (rest : Ended behind) :
      Ended (line ++ lineFeed :: behind)

theorem ended_of_getLast? {input : List UInt8} (h : input = [] ∨ input.getLast? = some lineFeed) :
    Ended input := by
  generalize hlength : input.length = n
  induction n using Nat.strong_induction_on generalizing input with
  | _ n ih =>
    rcases h with rfl | hlast
    · exact .nil
    · obtain ⟨line, behind, rfl, hline⟩ :=
        List.eq_append_cons_of_mem (List.mem_of_mem_getLast? hlast)
      refine .line hline (ih behind.length ?_ ?_ rfl)
      · rw [← hlength, List.length_append, List.length_cons]
        omega
      · cases behind with
        | nil => exact .inl rfl
        | cons byte behind =>
          rw [List.getLast?_append_cons, List.getLast?_cons_cons] at hlast
          exact .inr hlast

/-- Behind whole lines the input is cut as if nothing stood in front. -/
theorem rawLines_append {front : List UInt8} (h : Ended front) (rest : List UInt8) :
    rawLines (front ++ rest) = rawLines front ++ rawLines rest := by
  induction h with
  | nil =>
    rw [rawLines]
    rfl
  | line hline _ ih =>
    rw [List.append_assoc, List.cons_append, rawLines_line hline, rawLines_line hline, ih,
      List.cons_append]

end ShellLine.Echo

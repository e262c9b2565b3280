import StatementTable.Proofs.PrintedValues
import StatementTable.Proofs.RowValues
import StatementTable.Service.Session

/-!
# The lines of replies

A reply is printed without a newline, whatever texts it holds, so it takes up one line.  The byte
of a newline occurs in the encoding of no other character.  All replies are ordered objects with
natural numbers, which are read back from their lines.
-/

namespace StatementTable

open Json (Value Members)

/-! ## Bytes of texts -/

theorem Text.toList_byteArray_loop (bytes : ByteArray) (i : Nat) (taken : List UInt8) :
    ByteArray.toList.loop bytes i taken = taken.reverse ++ bytes.data.toList.drop i := by
  fun_induction ByteArray.toList.loop bytes i taken with
  | case1 i taken hlt ih =>
      have hdata : i < bytes.data.toList.length := hlt
      have hbyte : bytes.get! i = bytes.data.toList.get ⟨i, hdata⟩ := by
        cases bytes
        exact getElem!_pos _ i hlt
      rw [ih, List.drop_eq_getElem_cons hdata, hbyte]
      simp
  | case2 i taken hlt =>
      rw [List.drop_eq_nil_of_le (Nat.le_of_not_lt hlt), List.append_nil]

theorem Text.toList_byteArray (bytes : ByteArray) : bytes.toList = bytes.data.toList := by
  rw [ByteArray.toList, toList_byteArray_loop, List.reverse_nil, List.nil_append, List.drop_zero]

theorem Text.toList_toUTF8 (text : String) :
    text.toUTF8.toList = text.toList.flatMap String.utf8EncodeChar := by
  have hencode : text.toByteArray = text.toList.utf8Encode := by
    rw [← String.toByteArray_ofList, String.ofList_toList]
  rw [toList_byteArray, String.toUTF8_eq_toByteArray, hencode, List.utf8Encode,
    List.toList_data_toByteArray]

/-- Bytes are the encoding of at most one text. -/
theorem Text.fromUTF8?_eq_some_iff {content : ByteArray} {text : String} :
    String.fromUTF8? content = some text ↔ text.toUTF8 = content := by
  rw [String.toUTF8_eq_toByteArray, String.fromUTF8?]
  constructor
  · intro h
    split at h
    · obtain rfl := Option.some.inj h
      rfl
    · cases h
  · rintro rfl
    exact dif_pos text.isValidUTF8

namespace Service

/-- The text of a line is the one that is encoded by the line. -/
theorem decodeLine_eq_some_iff {line : List UInt8} {text : String} :
    decodeLine line = some text ↔ text.toUTF8.toList = line := by
  rw [Text.toList_byteArray, decodeLine, Text.fromUTF8?_eq_some_iff]
  constructor
  · intro h
    rw [h]
  · rintro rfl
    rfl

/-! ## Newlines -/

/-- A byte with its highest bit set is no newline. -/
theorem newline_ne_or {mask : UInt8} (h : mask.toBitVec.getLsbD 7 = true) (byte : UInt8) :
    newline ≠ byte ||| mask := by
  intro heq
  have hbit : newline.toBitVec.getLsbD 7 = (byte ||| mask).toBitVec.getLsbD 7 := by rw [← heq]
  rw [UInt8.toBitVec_or, BitVec.getLsbD_or, h, Bool.or_true] at hbit
  exact absurd hbit (by decide)

/-- The byte of a newline occurs in the encoding of no other character. -/
theorem eq_of_newline_mem_utf8EncodeChar
    {c : Char} (h : newline ∈ String.utf8EncodeChar c) : c = '\n' := by
  rcases c.utf8Size_eq with hsize | hsize | hsize | hsize
  · rw [String.utf8EncodeChar_eq_singleton hsize, List.mem_singleton] at h
    have hascii : c.val.toNat ≤ 127 := Char.utf8Size_eq_one_iff.mp hsize
    have hcode : newline.toNat = c.val.toNat % 256 := by rw [h]; rfl
    have hnewline : c.toNat = '\n'.toNat := by
      rw [Nat.mod_eq_of_lt (by omega)] at hcode
      exact hcode.symm
    exact Char.toNat_inj.mp hnewline
  · rw [String.utf8EncodeChar_eq_cons_cons hsize] at h
    simp only [List.mem_cons, List.not_mem_nil, or_false] at h
    rcases h with h | h <;> exact absurd h (newline_ne_or (by decide) _)
  · rw [String.utf8EncodeChar_eq_cons_cons_cons hsize] at h
    simp only [List.mem_cons, List.not_mem_nil, or_false] at h
    rcases h with h | h | h <;> exact absurd h (newline_ne_or (by decide) _)
  · rw [String.utf8EncodeChar_eq_cons_cons_cons_cons hsize] at h
    simp only [List.mem_cons, List.not_mem_nil, or_false] at h
    rcases h with h | h | h | h <;> exact absurd h (newline_ne_or (by decide) _)

theorem newline_notMem_toUTF8 {text : String} (h : '\n' ∉ text.toList) :
    newline ∉ text.toUTF8.toList := by
  rw [Text.toList_toUTF8, List.mem_flatMap]
  rintro ⟨c, hc, hnewline⟩
  exact h (eq_of_newline_mem_utf8EncodeChar hnewline ▸ hc)

end Service

namespace Json

theorem newline_notMem_escapeChar (c : Char) : '\n' ∉ escapeChar c := by
  have hhex : ∀ n < 16, hexDigit n ≠ '\n' := by decide
  fun_cases escapeChar c with
  | case8 c _ _ _ _ _ _ _ hcontrol =>
      have hhigh := hhex (c.toNat / 16) (by omega)
      have hlow := hhex (c.toNat % 16) (by omega)
      simp [hhigh.symm, hlow.symm]
  | case9 c _ _ _ _ hnewline => simpa [eq_comm] using hnewline
  | _ => decide

theorem newline_notMem_writeString (s : String) : '\n' ∉ writeString s := by
  simp [writeString, newline_notMem_escapeChar]

namespace Value

theorem newline_notMem_writeItems
    {depth : Nat} {items : List Value}
    (h : ∀ item ∈ items, '\n' ∉ item.write .compact depth) :
    '\n' ∉ writeItems .compact depth items := by
  induction items with
  | nil => simp [writeItems]
  | cons item items ih =>
      simp [writeItems, Layout.newline, h item (.head _), ih fun i hi => h i (.tail _ hi)]

theorem newline_notMem_writeMembers
    {depth : Nat} {members : Members}
    (h : ∀ member ∈ members, '\n' ∉ member.2.write .compact depth) :
    '\n' ∉ writeMembers .compact depth members := by
  induction members with
  | nil => simp [writeMembers]
  | cons member members ih =>
      obtain ⟨key, value⟩ := member
      simp [writeMembers, Layout.newline, Layout.colon, newline_notMem_writeString,
        h (key, value) (.head _), ih fun m hm => h m (.tail _ hm)]

/-- A value that is written compactly holds no newline. -/
theorem newline_notMem_write {limit : Nat} {v : Value} (h : Plain limit v) (depth : Nat) :
    '\n' ∉ v.write .compact depth := by
  induction h generalizing depth with
  | null => simp [write]
  | bool _ b => cases b <;> simp [write]
  | natural _ n =>
      rw [ofUInt64, write, Number.write]
      intro hmem
      exact absurd (Nat.isDigit_of_mem_toDigits (by decide) (by decide) hmem) (by decide)
  | string _ s =>
      rw [write]
      exact newline_notMem_writeString s
  | @array _ items _ ih =>
      cases items with
      | nil => simp [write]
      | cons item items =>
          have hitems := newline_notMem_writeItems fun i hi => ih i (.tail _ hi) (depth + 1)
          simp [write, Layout.newline, ih item (.head _), hitems]
  | @object _ members _ ih =>
      cases members with
      | nil => simp [write]
      | cons member members =>
          obtain ⟨key, value⟩ := member
          have hmembers := newline_notMem_writeMembers fun m hm => ih m (.tail _ hm) (depth + 1)
          simp [write, Layout.newline, Layout.colon, newline_notMem_writeString,
            ih (key, value) (.head _), hmembers]

theorem Plain.mono {depth depth' : Nat} {v : Value} (h : Plain depth v) (hle : depth ≤ depth') :
    Plain depth' v := by
  induction h generalizing depth' with
  | null => exact .null _
  | bool _ b => exact .bool _ b
  | natural _ n => exact .natural _ n
  | string _ s => exact .string _ s
  | array _ ih =>
      obtain ⟨depth', rfl⟩ := Nat.exists_eq_add_of_lt hle
      exact .array fun item hitem => ih item hitem (by omega)
  | object _ ih =>
      obtain ⟨depth', rfl⟩ := Nat.exists_eq_add_of_lt hle
      exact .object fun member hmember => ih member hmember (by omega)

end Value

end Json

/-! ## Replies -/

theorem Row.plain_and_ordered (row : Row) :
    Value.Plain 1 (.object (Members.ofList row.members)) ∧
      Value.Ordered (.object (Members.ofList row.members)) := by
  rw [Row.ofList_members]
  constructor
  · exact .object (by simp [Value.Plain.string, Value.Plain.natural])
  · have hkeys : ["condition".toList, "line".toList, "name".toList, "type".toList,
        "value".toList].Pairwise (· < ·) := by decide
    exact .object hkeys (by simp [Value.Ordered.string, Value.Ordered.number, Value.ofUInt64])

theorem Flattening.plain_toValue (flattening : Flattening) : Value.Plain 3 flattening.toValue := by
  have hrows : Value.Plain 2 (.array (flattening.rows.map fun row =>
      .object (Members.ofList row.members))) :=
    .array (by simpa using fun row _ => row.plain_and_ordered.1)
  have hlines : Value.Plain 2 (.array (flattening.unsupported.map Value.ofUInt64)) :=
    .array (by simpa using fun n _ => .natural 1 n)
  exact .object (by simp [hrows, hlines])

theorem Flattening.ordered_toValue (flattening : Flattening) : flattening.toValue.Ordered := by
  have hrows : Value.Ordered (.array (flattening.rows.map fun row =>
      .object (Members.ofList row.members))) :=
    .array (by simpa using fun row _ => row.plain_and_ordered.2)
  have hlines : Value.Ordered (.array (flattening.unsupported.map Value.ofUInt64)) :=
    .array (by simpa using fun n _ => .number (.natural n))
  have hkeys : ["rows".toList, "unsupported".toList].Pairwise (· < ·) := by decide
  exact .object hkeys (by simp [hrows, hlines])

namespace Service

theorem exists_toValue_of_flatten
    {params : Option Value} {data : Value} (h : Service.flatten params = .ok data) :
    ∃ flattening : Flattening, flattening.toValue = data := by
  revert h
  fun_cases Service.flatten params with
  | case1 | case2 => exact nofun
  | case3 params program options =>
      cases Program.ofValue program with
      | error error => exact nofun
      | ok program =>
          change (program.flatten options >>= fun flattening => .ok flattening.toValue) = _ → _
          cases program.flatten options with
          | error error => exact nofun
          | ok flattening => exact fun h => ⟨flattening, Except.ok.inj h⟩

/-- The data of a reply are plain and ordered. -/
theorem plain_and_ordered_of_execute
    {line : String} {reply : Reply} (h : execute line = .ok reply) :
    reply.data.Plain 3 ∧ reply.data.Ordered := by
  revert h
  fun_cases execute line with
  | case2 => exact nofun
  | case1 request =>
      fun_cases Request.execute request with
      | case1 | case3 =>
          rintro ⟨⟩
          exact ⟨.string _ _, .string _⟩
      | case2 =>
          intro h
          cases hdata : Service.flatten request.params with
          | error error => simp [hdata, Except.map] at h
          | ok data =>
              obtain ⟨flattening, rfl⟩ := exists_toValue_of_flatten hdata
              obtain rfl : { data := flattening.toValue } = reply := by
                simpa [hdata, Except.map] using h
              exact ⟨flattening.plain_toValue, flattening.ordered_toValue⟩
      | case4 => exact nofun

/-- A value that can be printed on a line and read back. -/
structure Printable (v : Value) : Prop where
  plain : v.Plain Json.nestingLimit
  ordered : v.Ordered

theorem Printable.parse_compact {v : Value} (h : Printable v) :
    Json.parse v.compact = some v :=
  Value.parse_compact h.plain h.ordered

theorem Printable.newline_notMem {v : Value} (h : Printable v) :
    newline ∉ v.compact.toUTF8.toList := by
  apply newline_notMem_toUTF8
  rw [Value.compact, String.toList_ofList]
  exact Value.newline_notMem_write h.plain 0

theorem printable_failure (error : Failure) : Printable (failure error) where
  plain := .object (by simp [Value.Plain.string])
  ordered :=
    .object (show ["message".toList, "status".toList].Pairwise (· < ·) by decide)
      (by simp [Value.Ordered.string])

theorem printable_success {line : String} {reply : Reply} (h : execute line = .ok reply) :
    Printable (success reply.data) := by
  obtain ⟨hplain, hordered⟩ := plain_and_ordered_of_execute h
  have hdata : reply.data.Plain 126 := hplain.mono (by decide)
  have hkeys : ["data".toList, "status".toList].Pairwise (· < ·) := by decide
  exact ⟨.object (by simp [hdata, Value.Plain.string]),
    .object hkeys (by simp [hordered, Value.Ordered.string])⟩

end Service

end StatementTable

import Mathlib.Data.List.TakeWhile
import NullScript.Console

/-!
# NullScript — lines that are printed and read

What a program prints are lines, and what it reads are lines again: a newline ends a line, and a
carriage return in front of it belongs to neither. In UTF-8 no other character has the byte of a
newline or of a carriage return in it, so lines of bytes are lines of text.

* `linesOf` — the lines of a text.
* `Input.exists_readLine` — reading takes the first line of what is left.
* `Builtin.runEach_readInput` — so a number of readings takes that number of lines.
* `lines_are_read_back` — the lines of any text are read in order, and those that were printed are
  read as they were printed.
-/

namespace NullScript

-- ---------------------------------------------------------------------------
-- Texts and their bytes
-- ---------------------------------------------------------------------------

/-- The bytes of characters in UTF-8. -/
def encode (cs : List Char) : List UInt8 := cs.flatMap String.utf8EncodeChar

theorem encode_append (cs ds : List Char) : encode (cs ++ ds) = encode cs ++ encode ds :=
  List.flatMap_append

theorem encode_toList (s : String) : encode s.toList = s.toUTF8.data.toList := by
  rw [String.toUTF8_eq_toByteArray, ← String.utf8Encode_toList, List.utf8Encode, encode,
    List.data_toByteArray]

/-- The bytes of characters decode to their text. -/
theorem decodeText?_encode (cs : List Char) :
    decodeText? (encode cs) = some (String.ofList cs) := by
  have h := encode_toList (String.ofList cs)
  rw [String.toList_ofList] at h
  rw [decodeText?, h]
  exact dif_pos (String.ofList cs).isValidUTF8

/-- Bytes decode to one text, the one that they encode. -/
theorem decodeText?_eq_some_iff {bytes : List UInt8} {text : String} :
    decodeText? bytes = some text ↔ bytes = encode text.toList := by
  constructor
  · intro h
    unfold decodeText? String.fromUTF8? at h
    split at h
    · rw [← Option.some.inj h, encode_toList]
      rfl
    · nomatch h
  · rintro rfl
    rw [decodeText?_encode, String.ofList_toList]

theorem encode_eq_nil {cs : List Char} : encode cs = [] ↔ cs = [] := by
  cases cs with
  | nil => exact ⟨fun _ => rfl, fun _ => rfl⟩
  | cons c cs => simp [encode]

/-- A byte below 128 stands for the character of this number, and for nothing else. -/
theorem toNat_eq_of_mem_utf8EncodeChar {c : Char} {b : UInt8} (h : b ∈ String.utf8EncodeChar c)
    (hb : b.toNat < 128) : c.toNat = b.toNat := by
  have hc : c.toNat = c.val.toNat := rfl
  revert h
  -- By the number of bytes; in more than one, each of them is 128 at least.
  fun_cases String.utf8EncodeChar c with
  | case1 v hsmall =>
    rw [List.mem_singleton]
    rintro rfl
    rw [UInt8.toNat_ofNat']
    omega
  | case2 =>
    simp only [List.mem_cons, List.not_mem_nil, or_false]
    rintro (rfl | rfl) <;> rw [UInt8.toNat_ofNat'] at hb <;> omega
  | case3 =>
    simp only [List.mem_cons, List.not_mem_nil, or_false]
    rintro (rfl | rfl | rfl) <;> rw [UInt8.toNat_ofNat'] at hb <;> omega
  | case4 =>
    simp only [List.mem_cons, List.not_mem_nil, or_false]
    rintro (rfl | rfl | rfl | rfl) <;> rw [UInt8.toNat_ofNat'] at hb <;> omega

/-- Without a newline there is no byte of one. -/
theorem not_mem_encode {cs : List Char} (h : '\n' ∉ cs) : newlineByte ∉ encode cs := by
  intro hmem
  obtain ⟨c, hc, hbyte⟩ := List.mem_flatMap.mp hmem
  have hnewline : c = '\n' := Char.toNat_inj.mp (toNat_eq_of_mem_utf8EncodeChar hbyte (by decide))
  exact h (hnewline ▸ hc)

theorem ne_newlineByte_of_mem {line : List Char} (h : '\n' ∉ line) :
    ∀ b ∈ encode line, decide (b ≠ newlineByte) = true :=
  fun _ hb => decide_eq_true fun heq => not_mem_encode h (heq ▸ hb)

/-- The characters without a carriage return at their end. -/
def withoutReturn (cs : List Char) : List Char :=
  if cs.getLast? = some '\r' then cs.dropLast else cs

theorem encode_singleton (c : Char) : encode [c] = String.utf8EncodeChar c :=
  List.flatMap_singleton _ _

/-- The last byte is a carriage return if the last character is. -/
theorem getLast?_encode_eq (cs : List Char) :
    (encode cs).getLast? = some returnByte ↔ cs.getLast? = some '\r' := by
  rcases List.eq_nil_or_concat cs with rfl | ⟨ds, c, rfl⟩
  · exact ⟨nofun, nofun⟩
  rw [List.concat_eq_append]
  -- the last byte is that of the last character
  have hlast : (encode (ds ++ [c])).getLast? = (String.utf8EncodeChar c).getLast? := by
    obtain ⟨bytes, b, hb⟩ := (List.eq_nil_or_concat (String.utf8EncodeChar c)).resolve_left
      String.utf8EncodeChar_ne_nil
    rw [encode_append, encode_singleton, hb, List.concat_eq_append, ← List.append_assoc,
      List.getLast?_concat, List.getLast?_concat]
  rw [hlast, List.getLast?_concat, Option.some.injEq]
  constructor
  · intro h
    exact Char.toNat_inj.mp
      (toNat_eq_of_mem_utf8EncodeChar (List.mem_of_getLast? h) (by decide))
  · rintro rfl
    decide

/-- A carriage return at the end may be dropped from the bytes or from the characters. -/
theorem dropReturn_encode (cs : List Char) :
    dropReturn (encode cs) = encode (withoutReturn cs) := by
  unfold dropReturn withoutReturn
  by_cases h : cs.getLast? = some '\r'
  · rw [if_pos ((getLast?_encode_eq cs).mpr h), if_pos h]
    obtain ⟨ds, rfl⟩ := List.getLast?_eq_some_iff.mp h
    rw [List.dropLast_concat, encode_append]
    exact List.dropLast_concat
  · rw [if_neg (mt (getLast?_encode_eq cs).mp h), if_neg h]

-- ---------------------------------------------------------------------------
-- The lines of a text
-- ---------------------------------------------------------------------------

/-- The lines of a text: what stands before each newline, without a carriage return at its end, and
then what stands behind the last newline, unless nothing does. -/
def linesOf (cs : List Char) : List String :=
  let parts := cs.splitOn '\n'
  (parts.dropLast.map withoutReturn ++ parts.getLast?.toList.filter (· ≠ [])).map String.ofList

/-- A newline ends the first line. -/
theorem linesOf_line {line : List Char} (h : '\n' ∉ line) (rest : List Char) :
    linesOf (line ++ '\n' :: rest) = String.ofList (withoutReturn line) :: linesOf rest := by
  have hparts := List.splitOn_ne_nil '\n' rest
  obtain ⟨part, parts, hcons⟩ := List.exists_cons_of_ne_nil hparts
  simp only [linesOf, List.splitOn_append_cons_self_of_not_mem h, hcons, List.dropLast_cons_cons,
    List.getLast?_cons_cons, List.map_cons, List.cons_append]

/-- What stands behind the last newline is a line if it is not empty. -/
theorem linesOf_last {line : List Char} (h : '\n' ∉ line) (hne : line ≠ []) :
    linesOf line = [String.ofList line] := by
  unfold linesOf
  rw [List.splitOn_eq_singleton h]
  simp [hne]

example : linesOf "a\r\n\nb\r".toList = ["a", "", "b\r"] := by decide

/-- A text has no line, or only an unfinished one, or a first one that a newline ends. -/
theorem text_cases (cs : List Char) :
    cs = [] ∨ (cs ≠ [] ∧ '\n' ∉ cs) ∨ ∃ line rest, '\n' ∉ line ∧ cs = line ++ '\n' :: rest := by
  by_cases hmem : '\n' ∈ cs
  · obtain ⟨line, rest, rfl, hline⟩ := List.eq_append_cons_of_mem hmem
    exact .inr (.inr ⟨line, rest, hline, rfl⟩)
  · by_cases hnil : cs = []
    · exact .inl hnil
    · exact .inr (.inl ⟨hnil, hmem⟩)

/-- Only where there are no characters are there no lines. -/
theorem linesOf_eq_nil {cs : List Char} : linesOf cs = [] ↔ cs = [] := by
  rcases text_cases cs with rfl | ⟨hne, hline⟩ | ⟨line, rest, hline, rfl⟩
  · exact ⟨fun _ => rfl, fun _ => rfl⟩
  · rw [linesOf_last hline hne]
    exact ⟨nofun, fun h => absurd h hne⟩
  · rw [linesOf_line hline]
    simp

-- ---------------------------------------------------------------------------
-- Reading
-- ---------------------------------------------------------------------------

namespace Input

/-- The input that holds a text and then ends. -/
def ofText (cs : List Char) : Input := ⟨encode cs, false⟩

theorem lineText_encode (cs : List Char) :
    lineText (encode cs) = .ok (some (String.ofList cs)) := by
  rw [lineText, decodeText?_encode]

/-- Reading takes the characters before a newline, and the newline. -/
theorem readLine_line {line : List Char} (h : '\n' ∉ line) (rest : List Char) :
    (ofText (line ++ '\n' :: rest)).readLine =
      (.ok (some (String.ofList (withoutReturn line))), ofText rest) := by
  have hbytes : encode (line ++ '\n' :: rest) = encode line ++ newlineByte :: encode rest :=
    encode_append line ('\n' :: rest)
  have hline := ne_newlineByte_of_mem h
  -- none of the bytes before is a newline, so the newline is where the bytes are cut
  unfold readLine ofText
  simp only [hbytes, List.takeWhile_append_of_pos hline, List.dropWhile_append_of_pos hline,
    List.takeWhile_cons_of_neg, List.dropWhile_cons_of_neg, ne_eq, not_true_eq_false, decide_false,
    Bool.false_eq_true, not_false_eq_true, List.append_nil, dropReturn_encode, lineText_encode]

/-- Without a newline reading takes all characters. -/
theorem readLine_last {line : List Char} (h : '\n' ∉ line) (hne : line ≠ []) :
    (ofText line).readLine = (.ok (some (String.ofList line)), ofText []) := by
  have hline := ne_newlineByte_of_mem h
  have htake := List.takeWhile_eq_self_iff.mpr hline
  have hdrop := List.dropWhile_eq_nil_iff.mpr hline
  unfold readLine ofText
  simp only [htake, hdrop, lineText_encode]
  rw [if_neg Bool.false_ne_true, if_neg]
  · rfl
  · rw [List.isEmpty_iff, encode_eq_nil]
    exact hne

/-- **Reading** takes the first line of what is left, or finds the end. -/
theorem exists_readLine (cs : List Char) :
    ∃ rest, (ofText cs).readLine = (.ok (linesOf cs).head?, ofText rest) ∧
      linesOf rest = (linesOf cs).tail := by
  -- the end of the input, an unfinished line, or a line that a newline ends
  rcases text_cases cs with rfl | ⟨hne, hline⟩ | ⟨line, rest, hline, rfl⟩
  · exact ⟨[], rfl, rfl⟩
  · exact ⟨[], by rw [readLine_last hline hne, linesOf_last hline hne]; rfl,
      by rw [linesOf_last hline hne]; rfl⟩
  · exact ⟨rest, by rw [readLine_line hline, linesOf_line hline]; rfl,
      by rw [linesOf_line hline]; rfl⟩

end Input

-- ---------------------------------------------------------------------------
-- Calls, one after the other
-- ---------------------------------------------------------------------------

namespace Builtin

/-- Calls built-in functions one after the other, whatever they answer. -/
def runEach : List (Builtin × List Value) → Streams → List (Except Failure Value) × Streams
  | [], s => ([], s)
  | (b, vs) :: calls, s =>
    let (answer, s) := b.run vs s
    let (answers, s) := runEach calls s
    (answer :: answers, s)

/-- This many readings. -/
def inputCalls (n : Nat) : List (Builtin × List Value) := List.replicate n (.readInput, [])

/-- Texts to be printed. -/
def printCalls (texts : List String) : List (Builtin × List Value) :=
  texts.map fun text => (.print, [.string text])

/-- What a reading answers: the line under the nullable type of strings, or its null. -/
def lineValue : Option String → Value
  | some line => ⟨.string line, Ty.string.orNull⟩
  | none => .nullOf .string

/-- `readInput` answers with the line that is read. -/
theorem run_readInput {s : Streams} {line : Option String} {input : Input}
    (h : s.input.readLine = (.ok line, input)) :
    Builtin.readInput.run [] s = (.ok (lineValue line), { s with input }) := by
  rw [run, runReadInput, h]
  cases line <;> rfl

/-- **A number of readings** takes as many lines of the input: each answers with the line at its
number, if there is one. -/
theorem runEach_readInput (n : Nat) {s : Streams} {cs : List Char} (h : s.input = .ofText cs) :
    ∃ rest, runEach (inputCalls n) s =
        ((List.range n).map fun i => .ok (lineValue (linesOf cs)[i]?),
          { s with input := .ofText rest }) ∧
      linesOf rest = (linesOf cs).drop n := by
  -- induction on the number of readings, of which the first takes the first line
  induction n generalizing s cs with
  | zero => exact ⟨cs, by rw [← h]; rfl, rfl⟩
  | succ n ih =>
    obtain ⟨next, hread, hnext⟩ := Input.exists_readLine cs
    have hinput : ({ s with input := .ofText next } : Streams).input = .ofText next := rfl
    obtain ⟨rest, hrun, hrest⟩ := ih hinput
    refine ⟨rest, ?_, by rw [hrest, hnext, List.drop_tail]⟩
    -- The line at a number of what is left has the next number in the whole.
    have hindex : ∀ i, (linesOf next)[i]? = (linesOf cs)[i + 1]? := by
      intro i
      rw [hnext, List.getElem?_tail]
    rw [inputCalls, List.replicate_succ, ← inputCalls, runEach, run_readInput (h ▸ hread)]
    simp only [hrun, hindex, List.range_succ_eq_map, List.map_cons, List.map_map,
      List.head?_eq_getElem?]
    rfl

end Builtin

-- ---------------------------------------------------------------------------
-- Printing
-- ---------------------------------------------------------------------------

namespace Output

/-- The output takes this many bytes, and hands them on. -/
def Takes (o : Output) (bytes : Nat) : Prop :=
  o.flushFails = false ∧ ∀ room, o.room = some room → bytes ≤ room

/-- A text and the byte of a newline are a line. -/
theorem push_newlineByte (text : String) : text.toUTF8.push newlineByte = lineBytes text := by
  rw [lineBytes, String.toUTF8_eq_toByteArray, String.toUTF8_eq_toByteArray,
    String.toByteArray_append]
  exact (ByteArray.append_toByteArray_singleton).symm

/-- Bytes that there is room for are written. -/
theorem write_of_takes {o : Output} {bytes : ByteArray} {more : Nat}
    (h : o.Takes (bytes.size + more)) :
    ∃ after, o.write bytes = (.ok (), after) ∧ after.written = o.written ++ bytes ∧
      after.Takes more := by
  obtain ⟨hflush, hroom⟩ := h
  unfold write
  -- without a limit all bytes are taken; with one there is room for them
  cases hr : o.room with
  | none => exact ⟨_, rfl, rfl, hflush, nofun⟩
  | some room =>
    have hle := hroom room hr
    have htaken : bytes.extract 0 room = bytes := by
      have hmax := ByteArray.extract_zero_max_size (a := bytes) (i := room)
      rwa [Nat.max_eq_left (by omega)] at hmax
    dsimp only
    rw [htaken, if_pos rfl]
    refine ⟨_, rfl, rfl, hflush, fun left hleft => ?_⟩
    cases hleft
    omega

/-- A line that there is room for is written and handed on. -/
theorem writeLine_of_takes {o : Output} {text : String} {more : Nat}
    (h : o.Takes ((lineBytes text).size + more)) :
    ∃ after, o.writeLine text = (.ok (), after) ∧ after.written = o.written ++ lineBytes text ∧
      after.Takes more := by
  obtain ⟨after, hwrite, hwritten, htakes⟩ := write_of_takes h
  refine ⟨after, ?_, hwritten, htakes⟩
  rw [writeLine, push_newlineByte, hwrite]
  dsimp only
  rw [htakes.1, if_neg Bool.false_ne_true]

end Output

/-- `print` answers with nothing once the line is written. -/
theorem Builtin.run_print {s : Streams} {text : String} {output : Output}
    (h : s.output.writeLine text = (.ok (), output)) :
    Builtin.print.run [.string text] s = (.ok .void, { s with output }) := by
  have hdisplay : (Value.string text).display = text := rfl
  rw [run, runPrint, hdisplay, h]

/-- **Printing** texts writes their lines, if there is room for all of them. -/
theorem Builtin.runEach_print (texts : List String) {s : Streams}
    (h : s.output.Takes (lines texts).size) :
    ∃ output, runEach (printCalls texts) s =
        (texts.map fun _ => .ok .void, { s with output := output }) ∧
      output.written = s.output.written ++ lines texts := by
  -- induction on the texts, behind each of which there is room for the others
  induction texts generalizing s with
  | nil => exact ⟨s.output, rfl, by rw [lines, ByteArray.append_empty]⟩
  | cons text texts ih =>
    rw [lines, ByteArray.size_append] at h
    obtain ⟨next, hwrite, hwritten, hnext⟩ := Output.writeLine_of_takes h
    obtain ⟨output, hrun, hlast⟩ := ih (s := { s with output := next }) hnext
    refine ⟨output, ?_, by rw [hlast, hwritten, lines, ByteArray.append_assoc]⟩
    rw [printCalls, List.map_cons, ← printCalls, runEach, run_print hwrite]
    simp only [hrun, List.map_cons]

-- ---------------------------------------------------------------------------
-- What is printed is read
-- ---------------------------------------------------------------------------

/-- The text is one line: it has no newline, and no carriage return at its end. -/
def IsLine (text : String) : Prop := '\n' ∉ text.toList ∧ text.toList.getLast? ≠ some '\r'

/-- The characters of lines. -/
def printedText (texts : List String) : List Char :=
  texts.flatMap fun text => text.toList ++ ['\n']

/-- The lines of what was printed are what was printed. -/
theorem linesOf_printedText {texts : List String} (h : ∀ text ∈ texts, IsLine text) :
    linesOf (printedText texts) = texts := by
  -- induction on the texts, each of which is the first line of what is left
  induction texts with
  | nil => rfl
  | cons text texts ih =>
    obtain ⟨hnewline, hreturn⟩ := h text List.mem_cons_self
    rw [printedText, List.flatMap_cons, List.append_assoc, List.singleton_append, ← printedText,
      linesOf_line hnewline, withoutReturn, if_neg hreturn, String.ofList_toList,
      ih fun x hx => h x (List.mem_cons_of_mem _ hx)]

/-- What was printed are the bytes of its characters. -/
theorem encode_printedText (texts : List String) :
    encode (printedText texts) = (lines texts).data.toList := by
  induction texts with
  | nil => rfl
  | cons text texts ih =>
    have hline : encode (text.toList ++ ['\n']) = (lineBytes text).data.toList := by
      rw [lineBytes, ← encode_toList, String.toList_append]
      rfl
    rw [printedText, List.flatMap_cons, ← printedText, encode_append, ih, hline, lines,
      ByteArray.data_append, Array.toList_append]

open Builtin (runEach inputCalls printCalls lineValue)

/-- Reading this many times from an input that holds a text and then ends. -/
structure ReadsLines (text : String) (s : Streams) (n : Nat) : Prop where
  /-- The lines are answered in order, and then nulls. -/
  answers : (runEach (inputCalls n) s).1 =
    (List.range n).map fun i => .ok (lineValue (linesOf text.toList)[i]?)
  /-- The input is at its end as soon as there has been a reading for each line. -/
  ends : (runEach (inputCalls n) s).2.input.bytes = [] ↔ (linesOf text.toList).length ≤ n
  /-- At the end of the input the next reading answers null, and before the end it does not. -/
  null : (Builtin.readInput.run [] (runEach (inputCalls n) s).2).1 = .ok (.nullOf .string) ↔
    (runEach (inputCalls n) s).2.input.bytes = []

/-- **Readings answer with the lines of the text**, and then with nulls. -/
theorem readsLines {text : String} {bytes : List UInt8} (h : decodeText? bytes = some text)
    {s : Streams} (hs : s.input = ⟨bytes, false⟩) (n : Nat) : ReadsLines text s n := by
  have hinput : s.input = .ofText text.toList := by
    rw [hs, decodeText?_eq_some_iff.mp h]
    rfl
  obtain ⟨rest, hrun, hrest⟩ := Builtin.runEach_readInput n hinput
  obtain ⟨next, hread, -⟩ := Input.exists_readLine rest
  -- the input is at its end where no line is left
  have hend : (Input.ofText rest).bytes = [] ↔ linesOf rest = [] :=
    encode_eq_nil.trans linesOf_eq_nil.symm
  refine ⟨by rw [hrun], ?_, ?_⟩
  · rw [hrun]
    exact hend.trans (by rw [hrest, List.drop_eq_nil_iff])
  · rw [hrun]
    dsimp only
    rw [hend, Builtin.run_readInput (s := { s with input := .ofText rest }) hread]
    -- the next reading finds the end of the input if no line is left
    cases linesOf rest with
    | nil => exact ⟨fun _ => rfl, fun _ => rfl⟩
    | cons line lines => exact ⟨nofun, nofun⟩

/-- Printing texts, and reading what has been written. -/
structure PrintsLines (texts : List String) (s : Streams) : Prop where
  /-- Every printing succeeds. -/
  answers : (runEach (printCalls texts) s).1 = texts.map fun _ => .ok .void
  /-- The lines are written behind what had been written before. -/
  written : (runEach (printCalls texts) s).2.output.written = s.output.written ++ lines texts
  /-- From the bytes of the lines the texts are read, and then nulls. -/
  readBack : ∀ t : Streams, t.input = ⟨(lines texts).data.toList, false⟩ → ∀ n,
    (runEach (inputCalls n) t).1 = (List.range n).map fun i => .ok (lineValue texts[i]?)

/-- **What is printed is read back.** Texts that are lines are printed one after the other, and
readings from the written bytes answer with these texts and then with nulls, however many there are.
More generally readings answer with the lines of any text in UTF-8, and with null at its end and
nowhere else. -/
theorem lines_are_read_back {texts : List String} (hlines : ∀ text ∈ texts, IsLine text)
    {s : Streams} (hroom : s.output.Takes (lines texts).size) :
    PrintsLines texts s ∧
      ∀ text bytes, decodeText? bytes = some text →
        ∀ t : Streams, t.input = ⟨bytes, false⟩ → ∀ n, ReadsLines text t n := by
  obtain ⟨output, hrun, hwritten⟩ := Builtin.runEach_print texts hroom
  refine ⟨⟨by rw [hrun], by rw [hrun, hwritten], fun t ht n => ?_⟩,
    fun text bytes h t ht n => readsLines h ht n⟩
  -- the written bytes are those of the lines, whose text has just these lines
  have hprinted : decodeText? (lines texts).data.toList =
      some (String.ofList (printedText texts)) := by
    rw [← encode_printedText, decodeText?_encode]
  rw [(readsLines hprinted ht n).answers, String.toList_ofList, linesOf_printedText hlines]

/-- Three lines that a stream with room for ten bytes takes: an empty one, one with a carriage
return in it, and one that is not ASCII. -/
theorem lines_are_read_back_three :
    (∀ text ∈ ["", "a\rb", "żó"], IsLine text) ∧
      PrintsLines ["", "a\rb", "żó"] ⟨⟨[], false⟩, ⟨.empty, some 10, false⟩⟩ ∧
      ∀ n, ReadsLines "a\r\n\nb\r"
        ⟨⟨[97, 13, 10, 10, 98, 13], false⟩, ⟨.empty, none, false⟩⟩ n := by
  have hlines : ∀ text ∈ ["", "a\rb", "żó"], IsLine text := by
    unfold IsLine
    decide
  have hroom : Output.Takes ⟨.empty, some 10, false⟩ (lines ["", "a\rb", "żó"]).size :=
    ⟨rfl, by rintro room ⟨⟩; decide⟩
  obtain ⟨hprinted, hread⟩ := lines_are_read_back (s := ⟨⟨[], false⟩, ⟨.empty, some 10, false⟩⟩)
    hlines hroom
  exact ⟨hlines, hprinted, hread _ _ (by decide) _ rfl⟩

end NullScript

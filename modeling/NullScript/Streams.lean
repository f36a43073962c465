import NullScript.Failure

/-!
# NullScript — the streams of a running program

A program reads lines from one stream of bytes and writes lines to another. Both can fail: the
input may break off, the output may take only so many bytes or refuse to hand them on.
-/

namespace NullScript

/-- What is left of the input. -/
structure Input where
  bytes : List UInt8
  /-- Does an error come after the last byte, rather than the end? -/
  breaks : Bool
deriving DecidableEq

/-- The output so far. -/
structure Output where
  written : ByteArray
  /-- How many more bytes are taken, if there is a limit. -/
  room : Option Nat
  flushFails : Bool

/-- The two streams of a program. -/
structure Streams where
  input : Input
  output : Output

/-- The newline. -/
def newlineByte : UInt8 := 10

/-- The carriage return. -/
def returnByte : UInt8 := 13

/-- The text that the bytes encode, if they are UTF-8. -/
def decodeText? (bytes : List UInt8) : Option String := String.fromUTF8? ⟨bytes.toArray⟩

/-- The bytes without a carriage return at their end. -/
def dropReturn (bytes : List UInt8) : List UInt8 :=
  if bytes.getLast? = some returnByte then bytes.dropLast else bytes

namespace Input

/-- The text of a line, or the failure that it has none. -/
def lineText (bytes : List UInt8) : Except StreamFault (Option String) :=
  match decodeText? bytes with
  | some text => .ok (some text)
  | none => .error .notText

/-- Reads a line: up to a newline, which is dropped together with a carriage return before it, or
else up to the end. At the end there is no line. A line that is cut off by an error is lost. -/
def readLine (i : Input) : Except StreamFault (Option String) × Input :=
  let line := i.bytes.takeWhile (· ≠ newlineByte)
  match i.bytes.dropWhile (· ≠ newlineByte) with
  | _ :: rest => (lineText (dropReturn line), { i with bytes := rest })
  | [] =>
    if i.breaks then (.error .inputBroken, { i with bytes := [] })
    else if line.isEmpty then (.ok none, i)
    else (lineText line, { i with bytes := [] })

end Input

namespace Output

/-- Writes bytes, as many as there is room for. -/
def write (o : Output) (bytes : ByteArray) : Except StreamFault Unit × Output :=
  match o.room with
  | none => (.ok (), { o with written := o.written ++ bytes })
  | some room =>
    let taken := bytes.extract 0 room
    let o := { o with written := o.written ++ taken, room := some (room - taken.size) }
    (if taken.size = bytes.size then .ok () else .error .outputFull, o)

/-- Writes a line and hands it on. -/
def writeLine (o : Output) (text : String) : Except StreamFault Unit × Output :=
  match o.write (text.toUTF8.push newlineByte) with
  | (.ok (), o) => (if o.flushFails then .error .flushFailed else .ok (), o)
  | (.error e, o) => (.error e, o)

end Output

end NullScript

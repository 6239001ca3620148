import Cellular.Unsolicited.Code
/-!
# Finding unsolicited lines in the stream

Octets arrive one after another, and before a code can be read its line has to be found.  `digest`
looks at the front of what has arrived.  A code stands behind a line break, in one of two forms:

* its name, a colon, and everything through the next carriage return and line feed;
* its name with the carriage return and line feed directly behind it.

Names are tried in a fixed order.  While what has arrived still agrees with a name, or with the
colon or line end behind it, but is cut short there, the answer is to wait for more.  A colon
without a line end behind it is no reason to wait.
-/

namespace Cellular

/-- What the front of a stream holds. -/
inductive Digest where
  /-- A line, and how many octets of the stream it takes up with its framing. -/
  | line (line : Bytes) (used : Nat)
  /-- The beginning of a line, as far as can be told. -/
  | incomplete
  /-- No unsolicited line. -/
  | noMatch
  deriving DecidableEq, Repr

namespace Digest

/-- How an expected stretch of octets compares with the stream. -/
inductive Match where
  /-- It is there, and this follows. -/
  | whole (rest : Bytes)
  /-- The stream ends within it. -/
  | cut
  /-- The stream differs from it. -/
  | differs
  deriving DecidableEq, Repr

/-- Compare an expected stretch with the front of the stream. -/
def expect : (tag : Bytes) → Bytes → Match
  | [], bs => .whole bs
  | _ :: _, [] => .cut
  | t :: tag, b :: bs => if t = b then expect tag bs else .differs

/-- What follows the line break in front. -/
def lineBreak? : Bytes → Option Bytes
  | 10 :: rest => some rest
  | 13 :: 10 :: rest => some rest
  | _ => none

/-- The octets before the first line end, and what follows it. -/
def throughLineEnd? : Bytes → Option (Bytes × Bytes)
  | [] => none
  | [_] => none
  | a :: b :: bs =>
    if a = 13 ∧ b = 10 then some ([], bs)
    else (throughLineEnd? (b :: bs)).map fun (inner, rest) => (a :: inner, rest)

/-- What the front of `stream` holds for one code.  Lines that do not pass `accepts` are no
match. -/
def code (stream : Bytes) (name : Bytes) (accepts : Bytes → Bool) : Digest :=
  match lineBreak? stream with
  | none => .noMatch
  | some framed =>
    let found (body rest : Bytes) : Digest :=
      let line := Bytes.trim body
      if accepts line then .line line (stream.length - rest.length) else .noMatch
    match expect name framed with
    | .cut => .incomplete
    | .differs => .noMatch
    | .whole rest =>
      let bare :=
        match expect Bytes.lineEnd rest with
        | .whole rest => found name rest
        | .cut => .incomplete
        | .differs => .noMatch
      match expect [58] rest with
      | .cut => .incomplete
      | .differs => bare
      | .whole rest =>
        match throughLineEnd? rest with
        | some (inner, rest) => found (name ++ 58 :: inner) rest
        | none => bare

/-- The codes, in the order they are tried, and which of their lines count.  The reply to a query of
the network system mode has the name of the code, but two values. -/
def codes : List (Bytes × (Bytes → Bool)) :=
  [(Bytes.ofString "+CREG", fun _ => true), (Bytes.ofString "+CGREG", fun _ => true),
    (Bytes.ofString "+CEREG", fun _ => true), (Bytes.ofString "+CNSMOD", fun l => !l.contains 44),
    (Bytes.ofString "%IPDPACT", fun _ => true), (Bytes.ofString "+CIEV", fun _ => true),
    (Bytes.ofString "^SHUTDOWN", fun _ => true)]

/-- The first answer of a list of codes that is not `noMatch`. -/
def firstOf (stream : Bytes) : List (Bytes × (Bytes → Bool)) → Digest
  | [] => .noMatch
  | (name, accepts) :: codes =>
    match code stream name accepts with
    | .noMatch => firstOf stream codes
    | found => found

/-- What the front of a stream holds. -/
def ofStream (stream : Bytes) : Digest := firstOf stream codes

end Digest

/-- The code of a line sent on its own, with its framing: nothing when the line is not
recognised. -/
def Urc.ofSentLine? (line : Bytes) : Option Urc :=
  match Digest.ofStream (Bytes.lineEnd ++ line ++ Bytes.lineEnd) with
  | .line line _ => Urc.read? line
  | _ => none

end Cellular

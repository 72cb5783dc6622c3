import ScriptAudit.Text

/-! Bytes as text. Source files must be well-formed; file names may hold stray bytes. -/

namespace ScriptAudit.Utf8

inductive Fault where
  | badStart
  | badContinuation
  | truncated
deriving DecidableEq, Repr

def Fault.message : Fault → String
  | .badStart => "invalid start byte"
  | .badContinuation => "invalid continuation byte"
  | .truncated => "unexpected end of data"

def isContinuation (b : UInt8) : Bool := 0x80 ≤ b && b < 0xC0

/-- How many bytes follow a first byte, and the bounds within which the second must lie. -/
def lead (b : UInt8) : Option (Nat × UInt8 × UInt8) :=
  if b < 0xC2 then none
  else if b < 0xE0 then some (1, 0x80, 0xBF)
  else if b = 0xE0 then some (2, 0xA0, 0xBF)
  else if b = 0xED then some (2, 0x80, 0x9F)
  else if b < 0xF0 then some (2, 0x80, 0xBF)
  else if b = 0xF0 then some (3, 0x90, 0xBF)
  else if b < 0xF4 then some (3, 0x80, 0xBF)
  else if b = 0xF4 then some (3, 0x80, 0x8F)
  else none

/-- The low bits of a first byte with `n` bytes to follow. -/
def leadBits (n : Nat) (b : UInt8) : Nat := b.toNat % (1 <<< (6 - n))

/-- Reads `n` more bytes of a character whose bits so far are `acc`. -/
def continuation : Nat → Nat → List UInt8 → Except Fault (Char × List UInt8)
  | 0, acc, rest => .ok (Char.ofNat acc, rest)
  | _ + 1, _, [] => .error .truncated
  | n + 1, acc, b :: rest =>
    if isContinuation b then continuation n (64 * acc + b.toNat % 64) rest
    else .error .badContinuation

def next (b : UInt8) (rest : List UInt8) : Except Fault (Char × List UInt8) :=
  if b < 0x80 then .ok (Char.ofNat b.toNat, rest)
  else
    match lead b with
    | none => .error .badStart
    | some (n, low, high) =>
      match rest with
      | [] => .error .truncated
      | c :: _ =>
        if low ≤ c && c ≤ high then continuation n (leadBits n b) rest
        else .error .badContinuation

theorem continuation_length {n acc : Nat} {bs rest : List UInt8} {c : Char}
    (h : continuation n acc bs = .ok (c, rest)) : rest.length ≤ bs.length := by
  induction n generalizing acc bs with
  | zero => simp only [continuation, Except.ok.injEq, Prod.mk.injEq] at h; simp [h.2]
  | succ n ih =>
    cases bs with
    | nil => simp [continuation] at h
    | cons b bs =>
      simp only [continuation] at h
      split at h
      · exact Nat.le_succ_of_le (ih h)
      · simp at h

theorem next_length {b : UInt8} {bs rest : List UInt8} {c : Char}
    (h : next b bs = .ok (c, rest)) : rest.length ≤ bs.length := by
  unfold next at h
  split at h
  · simp only [Except.ok.injEq, Prod.mk.injEq] at h; simp [h.2]
  · split at h
    · simp at h
    · split at h
      · simp at h
      · split at h
        · exact continuation_length h
        · simp at h

def decode (bytes : List UInt8) : Except Fault (List Char) :=
  match bytes with
  | [] => .ok []
  | b :: bs =>
    match _h : next b bs with
    | .error fault => .error fault
    | .ok (c, rest) =>
      match decode rest with
      | .error fault => .error fault
      | .ok cs => .ok (c :: cs)
termination_by bytes.length
decreasing_by
  have := next_length _h
  simp only [List.length_cons]
  omega

/-- A file name: what starts no character is kept as a stray byte. -/
def decodeName (bytes : List UInt8) : Text :=
  match bytes with
  | [] => []
  | b :: bs =>
    match _h : next b bs with
    | .error _ => .stray b :: decodeName bs
    | .ok (c, rest) => .char c :: decodeName rest
termination_by bytes.length
decreasing_by
  · simp
  · have := next_length _h
    simp only [List.length_cons]
    omega

def encode (cs : List Char) : List UInt8 := cs.flatMap String.utf8EncodeChar

def byteOrderMark : List UInt8 := [0xEF, 0xBB, 0xBF]

/-- One mark at the front is dropped, and so are bytes that only begin one. -/
def dropMark (bytes : List UInt8) : List UInt8 :=
  if bytes.isPrefixOf byteOrderMark then []
  else if byteOrderMark.isPrefixOf bytes then bytes.drop 3
  else bytes

/-- Every line end becomes a newline. -/
def unifyNewlines : List Char → List Char
  | [] => []
  | '\r' :: '\n' :: rest => '\n' :: unifyNewlines rest
  | '\r' :: rest => '\n' :: unifyNewlines rest
  | c :: rest => c :: unifyNewlines rest

def decodeSource (bytes : List UInt8) : Except Fault String :=
  (decode (dropMark bytes)).map fun cs => String.ofList (unifyNewlines cs)

end ScriptAudit.Utf8

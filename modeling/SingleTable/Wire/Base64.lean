import SingleTable.Form.Value

/-!
# Base 64

Bytes in requests to the service are written in base 64: three bytes become four digits of
six bits, and the last group is filled up with `=`.
-/

namespace SingleTable.Wire

def digits64 : List Char :=
  "ABCDEFGHIJKLMNOPQRSTUVWXYZabcdefghijklmnopqrstuvwxyz0123456789+/".toList

def digit64 (value : Nat) : Char := digits64.getD value 'A'

def value64? (digit : Char) : Option Nat := digits64.idxOf? digit

def encode64 : List UInt8 → List Char
  | [] => []
  | [a] =>
    let n := a.toNat * 16
    [digit64 (n / 64), digit64 (n % 64), '=', '=']
  | [a, b] =>
    let n := (a.toNat * 256 + b.toNat) * 4
    [digit64 (n / 4096), digit64 (n / 64 % 64), digit64 (n % 64), '=']
  | a :: b :: c :: rest =>
    let n := (a.toNat * 256 + b.toNat) * 256 + c.toNat
    digit64 (n / 262144) :: digit64 (n / 4096 % 64) :: digit64 (n / 64 % 64)
      :: digit64 (n % 64) :: encode64 rest

/-- The bytes of some digits.  The bits that fill up the last digit must be zero. -/
def decode64 : List Char → Option (List UInt8)
  | [] => some []
  | [a, b, '=', '='] => do
    let n := (← value64? a) * 64 + (← value64? b)
    if n % 16 = 0 then some [UInt8.ofNat (n / 16)] else none
  | [a, b, c, '='] => do
    let n := ((← value64? a) * 64 + (← value64? b)) * 64 + (← value64? c)
    if n % 4 = 0 then some [UInt8.ofNat (n / 1024), UInt8.ofNat (n / 4 % 256)] else none
  | a :: b :: c :: d :: rest => do
    let n := (((← value64? a) * 64 + (← value64? b)) * 64 + (← value64? c)) * 64 + (← value64? d)
    let others ← decode64 rest
    some (UInt8.ofNat (n / 65536) :: UInt8.ofNat (n / 256 % 256) :: UInt8.ofNat (n % 256)
      :: others)
  | _ => none

def base64 : ByteNotation := ⟨fun bytes => String.ofList (encode64 bytes), decode64⟩

def ofItem (item : Item) : Document := Form.ofNameMap (Form.writeValue base64) item

def item (d : Document) : Form.Reading Item := Form.nameMap (Form.readValue base64) d

end SingleTable.Wire

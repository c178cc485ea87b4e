/-!
# Base64

Bytes in the standard alphabet, three bytes to four characters, the last group padded with `=`.
-/
namespace ValueBridge.Base64

def alphabet : List Char := "ABCDEFGHIJKLMNOPQRSTUVWXYZabcdefghijklmnopqrstuvwxyz0123456789+/".toList

/-- The character of six bits. -/
def character (n : Nat) : Char := alphabet.getD (n % 64) 'A'

def encodeBytes : List UInt8 → List Char
  | a :: b :: c :: rest =>
    let n := a.toNat * 65536 + b.toNat * 256 + c.toNat
    character (n / 262144) :: character (n / 4096) :: character (n / 64) :: character n :: encodeBytes rest
  | [a, b] =>
    let n := a.toNat * 65536 + b.toNat * 256
    [character (n / 262144), character (n / 4096), character (n / 64), '=']
  | [a] =>
    let n := a.toNat * 65536
    [character (n / 262144), character (n / 4096), '=', '=']
  | [] => []

def encode (bytes : List UInt8) : String := String.ofList (encodeBytes bytes)

end ValueBridge.Base64

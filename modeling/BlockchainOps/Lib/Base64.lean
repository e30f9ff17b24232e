import Mathlib.Data.List.Basic

/-!
# Base64

A `Base64` engine writes bytes as a text and reads them back. Its two laws say that it is
strict: it reads what it wrote, and it reads nothing else, so padding is required and unused bits
are zero.

`Base64.standard` is the engine of the standard alphabet with padding. Its decoder undoes
groups of four symbols and then accepts a text only if it is the one the encoder writes.
-/

/-- A strict base64 engine. -/
structure Base64 where
  encode : List UInt8 → String
  decode : String → Except String (List UInt8)
  decode_encode : ∀ b, decode (encode b) = .ok b
  encode_of_decode : ∀ {s b}, decode s = .ok b → encode b = s

namespace Base64

theorem encode_injective (e : Base64) {b b' : List UInt8} (h : e.encode b = e.encode b') :
    b = b' := by
  have hdecode := e.decode_encode b
  rw [h, e.decode_encode b', Except.ok.injEq] at hdecode
  exact hdecode.symm

namespace Standard

def alphabet : List Char :=
  "ABCDEFGHIJKLMNOPQRSTUVWXYZabcdefghijklmnopqrstuvwxyz0123456789+/".toList

/-- The symbol of a value below 64. -/
def symbol (n : ℕ) : Char := alphabet.getD n '='

/-- The value of a symbol. -/
def value (c : Char) : ℕ := alphabet.idxOf c

def encodeChars : List UInt8 → List Char
  | [] => []
  | [a] => [symbol (a.toNat / 4), symbol (a.toNat % 4 * 16), '=', '=']
  | [a, b] =>
    [symbol (a.toNat / 4), symbol (a.toNat % 4 * 16 + b.toNat / 16), symbol (b.toNat % 16 * 4),
      '=']
  | a :: b :: c :: rest =>
    symbol (a.toNat / 4) :: symbol (a.toNat % 4 * 16 + b.toNat / 16)
      :: symbol (b.toNat % 16 * 4 + c.toNat / 64) :: symbol (c.toNat % 64) :: encodeChars rest

/-- The bytes of groups of four symbols; whether the text is well formed is not asked. -/
def groups : List Char → List UInt8
  | w :: x :: y :: z :: rest =>
    let a := UInt8.ofNat (value w * 4 + value x / 16)
    let b := UInt8.ofNat (value x % 16 * 16 + value y / 4)
    let c := UInt8.ofNat (value y % 4 * 64 + value z)
    if y = '=' then [a]
    else if z = '=' then [a, b]
    else a :: b :: c :: groups rest
  | _ => []

theorem value_symbol {n : ℕ} (h : n < 64) : value (symbol n) = n := by
  have hall : ∀ i : Fin 64, value (symbol i) = i := by decide +kernel
  exact hall ⟨n, h⟩

theorem symbol_ne_pad {n : ℕ} (h : n < 64) : symbol n ≠ '=' := by
  have hall : ∀ i : Fin 64, symbol i ≠ '=' := by decide +kernel
  exact hall ⟨n, h⟩

theorem groups_encodeChars : ∀ b : List UInt8, groups (encodeChars b) = b
  | [] => rfl
  | [a] => by
    have ha := a.toNat_lt
    have h1 : value (symbol (a.toNat / 4)) = a.toNat / 4 := value_symbol (by omega)
    have h2 : value (symbol (a.toNat % 4 * 16)) = a.toNat % 4 * 16 := value_symbol (by omega)
    have hjoin : a.toNat / 4 * 4 + a.toNat % 4 * 16 / 16 = a.toNat := by omega
    simp only [encodeChars, groups, if_pos, h1, h2, hjoin, UInt8.ofNat_toNat]
  | [a, b] => by
    have ha := a.toNat_lt
    have hb := b.toNat_lt
    have h1 : value (symbol (a.toNat / 4)) = a.toNat / 4 := value_symbol (by omega)
    have h2 : value (symbol (a.toNat % 4 * 16 + b.toNat / 16))
        = a.toNat % 4 * 16 + b.toNat / 16 := value_symbol (by omega)
    have h3 : value (symbol (b.toNat % 16 * 4)) = b.toNat % 16 * 4 := value_symbol (by omega)
    have hy : symbol (b.toNat % 16 * 4) ≠ '=' := symbol_ne_pad (by omega)
    have hjoin1 : a.toNat / 4 * 4 + (a.toNat % 4 * 16 + b.toNat / 16) / 16 = a.toNat := by omega
    have hjoin2 : (a.toNat % 4 * 16 + b.toNat / 16) % 16 * 16 + b.toNat % 16 * 4 / 4 = b.toNat := by
      omega
    simp only [encodeChars, groups, if_neg hy, if_pos, h1, h2, h3, hjoin1, hjoin2,
      UInt8.ofNat_toNat]
  | a :: b :: c :: rest => by
    have ha := a.toNat_lt
    have hb := b.toNat_lt
    have hc := c.toNat_lt
    have h1 : value (symbol (a.toNat / 4)) = a.toNat / 4 := value_symbol (by omega)
    have h2 : value (symbol (a.toNat % 4 * 16 + b.toNat / 16))
        = a.toNat % 4 * 16 + b.toNat / 16 := value_symbol (by omega)
    have h3 : value (symbol (b.toNat % 16 * 4 + c.toNat / 64))
        = b.toNat % 16 * 4 + c.toNat / 64 := value_symbol (by omega)
    have h4 : value (symbol (c.toNat % 64)) = c.toNat % 64 := value_symbol (by omega)
    have hy : symbol (b.toNat % 16 * 4 + c.toNat / 64) ≠ '=' := symbol_ne_pad (by omega)
    have hz : symbol (c.toNat % 64) ≠ '=' := symbol_ne_pad (by omega)
    have hjoin1 : a.toNat / 4 * 4 + (a.toNat % 4 * 16 + b.toNat / 16) / 16 = a.toNat := by omega
    have hjoin2 : (a.toNat % 4 * 16 + b.toNat / 16) % 16 * 16
        + (b.toNat % 16 * 4 + c.toNat / 64) / 4 = b.toNat := by omega
    have hjoin3 : (b.toNat % 16 * 4 + c.toNat / 64) % 4 * 64 + c.toNat % 64 = c.toNat := by omega
    simp only [encodeChars, groups, if_neg hy, if_neg hz, h1, h2, h3, h4, hjoin1, hjoin2, hjoin3,
      UInt8.ofNat_toNat, groups_encodeChars rest]

def encode (b : List UInt8) : String := String.ofList (encodeChars b)

def decode (s : String) : Except String (List UInt8) :=
  if encode (groups s.toList) = s then .ok (groups s.toList) else .error "Invalid base64"

end Standard

/-- The standard alphabet, with padding. -/
def standard : Base64 where
  encode := Standard.encode
  decode := Standard.decode
  decode_encode b := by
    have hgroups : Standard.groups (Standard.encode b).toList = b := by
      rw [Standard.encode, String.toList_ofList, Standard.groups_encodeChars]
    rw [Standard.decode, hgroups, if_pos rfl]
  encode_of_decode {s b} h := by
    unfold Standard.decode at h
    split_ifs at h with hs
    rw [← Except.ok.inj h]
    exact hs

end Base64

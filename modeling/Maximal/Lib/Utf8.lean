import Mathlib.Data.List.Basic

/-!
# UTF-8

A byte is a number below 256. Texts are encoded character by character. The decoder takes one byte
at a time and keeps its state between the chunks that a stream is cut into; what is no encoding of a
character decodes to a replacement character.

## Main definitions

- `Utf8.encode`
- `Utf8.Decoder`, `Utf8.Decoder.decode`
- `Utf8.TextDecoder`, `Utf8.TextDecoder.decodeAll` — a decoder that drops a byte order mark, chunk by
  chunk

## Main results

- `Utf8.Decoder.decode_encode` — the text again
- `Utf8.TextDecoder.decodeAll_eq` — the text of a stream, whatever the cuts are
- `Utf8.TextDecoder.decodeAll_encode`
-/

namespace Utf8

def encodeChar (c : Char) : List ℕ :=
  let n := c.toNat
  if n < 0x80 then [n]
  else if n < 0x800 then [0xC0 + n / 64, 0x80 + n % 64]
  else if n < 0x10000 then [0xE0 + n / 4096, 0x80 + n / 64 % 64, 0x80 + n % 64]
  else [0xF0 + n / 262144, 0x80 + n / 4096 % 64, 0x80 + n / 64 % 64, 0x80 + n % 64]

def encode (text : List Char) : List ℕ := text.flatMap encodeChar

def replacement : Char := Char.ofNat 0xFFFD

/-- The bits read of a character, how many bytes are needed, and where the next one must be. -/
structure Decoder where
  point : ℕ
  needed : ℕ
  lower : ℕ
  upper : ℕ
  deriving DecidableEq

namespace Decoder

def start : Decoder := ⟨0, 0, 0x80, 0xBF⟩

/-- The first byte of a character. -/
def first (b : ℕ) : Decoder × List Char :=
  if b < 0x80 then (start, [Char.ofNat b])
  else if 0xC2 ≤ b ∧ b ≤ 0xDF then (⟨b - 0xC0, 1, 0x80, 0xBF⟩, [])
  else if 0xE0 ≤ b ∧ b ≤ 0xEF then
    (⟨b - 0xE0, 2, if b = 0xE0 then 0xA0 else 0x80, if b = 0xED then 0x9F else 0xBF⟩, [])
  else if 0xF0 ≤ b ∧ b ≤ 0xF4 then
    (⟨b - 0xF0, 3, if b = 0xF0 then 0x90 else 0x80, if b = 0xF4 then 0x8F else 0xBF⟩, [])
  else (start, [replacement])

def step (d : Decoder) (b : ℕ) : Decoder × List Char :=
  if d.needed = 0 then first b
  else if d.lower ≤ b ∧ b ≤ d.upper then
    let point := d.point * 64 + (b - 0x80)
    if d.needed = 1 then (start, [Char.ofNat point])
    else (⟨point, d.needed - 1, 0x80, 0xBF⟩, [])
  else
    -- the byte that breaks a character off begins another one
    ((first b).1, replacement :: (first b).2)

def decode (d : Decoder) : List ℕ → Decoder × List Char
  | [] => (d, [])
  | b :: bs =>
    let (d', cs) := d.step b
    let (d'', cs') := d'.decode bs
    (d'', cs ++ cs')

theorem decode_nil (d : Decoder) : d.decode [] = (d, []) := rfl

theorem decode_cons (d : Decoder) (b : ℕ) (bs : List ℕ) :
    d.decode (b :: bs) =
      (((d.step b).1.decode bs).1, (d.step b).2 ++ ((d.step b).1.decode bs).2) := rfl

theorem decode_append (d : Decoder) (bs bs' : List ℕ) :
    d.decode (bs ++ bs') =
      (((d.decode bs).1.decode bs').1, (d.decode bs).2 ++ ((d.decode bs).1.decode bs').2) := by
  induction bs generalizing d with
  | nil => rfl
  | cons b bs ih => simp only [List.cons_append, decode, ih, List.append_assoc]

/-! ## Characters -/

section Steps

variable {d : Decoder} {b : ℕ}

theorem step_start : start.step b = first b := if_pos rfl

theorem step_continue (hneeded : 2 ≤ d.needed) (hb : d.lower ≤ b ∧ b ≤ d.upper) :
    d.step b = (⟨d.point * 64 + (b - 0x80), d.needed - 1, 0x80, 0xBF⟩, []) := by
  rw [step, if_neg (by omega), if_pos hb]
  exact if_neg (by omega)

theorem step_last (hneeded : d.needed = 1) (hb : d.lower ≤ b ∧ b ≤ d.upper) :
    d.step b = (start, [Char.ofNat (d.point * 64 + (b - 0x80))]) := by
  rw [step, if_neg (by omega), if_pos hb]
  exact if_pos hneeded

end Steps

theorem toNat_valid (c : Char) : c.toNat < 0xD800 ∨ 0xDFFF < c.toNat ∧ c.toNat < 0x110000 :=
  c.valid

/-- The bytes of a character are read as that character. -/
theorem decode_encodeChar (c : Char) : start.decode (encodeChar c) = (start, [c]) := by
  have hvalid := toNat_valid c
  have hc : ∀ m, m = c.toNat → Char.ofNat m = c := fun m hm => hm ▸ Char.ofNat_toNat c
  rw [encodeChar]
  generalize c.toNat = n at hvalid hc
  by_cases h1 : n < 0x80
  · rw [if_pos h1, decode_cons, step_start, first, if_pos h1, hc n rfl, decode_nil]
    rfl
  rw [if_neg h1]
  by_cases h2 : n < 0x800
  · have hfirst : start.step (0xC0 + n / 64) = (⟨n / 64, 1, 0x80, 0xBF⟩, []) := by
      rw [step_start, first, if_neg (by omega), if_pos (by omega), Nat.add_sub_cancel_left]
    rw [if_pos h2, decode_cons, hfirst, decode_cons,
      step_last rfl ⟨by dsimp only; omega, by dsimp only; omega⟩, decode_nil,
      hc _ (by dsimp only; omega)]
    rfl
  rw [if_neg h2]
  by_cases h3 : n < 0x10000
  · have hfirst : start.step (0xE0 + n / 4096) =
        (⟨n / 4096, 2, if 0xE0 + n / 4096 = 0xE0 then 0xA0 else 0x80,
          if 0xE0 + n / 4096 = 0xED then 0x9F else 0xBF⟩, []) := by
      rw [step_start, first, if_neg (by omega), if_neg (by omega), if_pos (by omega),
        Nat.add_sub_cancel_left]
    -- the ends of the range keep out long encodings and surrogates
    rw [if_pos h3, decode_cons, hfirst, decode_cons,
      step_continue (Nat.le_refl 2) ⟨by dsimp only; split <;> omega, by dsimp only; split <;> omega⟩,
      decode_cons, step_last rfl ⟨by dsimp only; omega, by dsimp only; omega⟩, decode_nil,
      hc _ (by dsimp only; omega)]
    rfl
  · have hfirst : start.step (0xF0 + n / 262144) =
        (⟨n / 262144, 3, if 0xF0 + n / 262144 = 0xF0 then 0x90 else 0x80,
          if 0xF0 + n / 262144 = 0xF4 then 0x8F else 0xBF⟩, []) := by
      rw [step_start, first, if_neg (by omega), if_neg (by omega), if_neg (by omega),
        if_pos (by omega), Nat.add_sub_cancel_left]
    rw [if_neg h3, decode_cons, hfirst, decode_cons,
      step_continue (Nat.le_succ 2) ⟨by dsimp only; split <;> omega, by dsimp only; split <;> omega⟩,
      decode_cons, step_continue (Nat.le_refl 2) ⟨by dsimp only; omega, by dsimp only; omega⟩,
      decode_cons, step_last rfl ⟨by dsimp only; omega, by dsimp only; omega⟩, decode_nil,
      hc _ (by dsimp only; omega)]
    rfl

theorem decode_encode (text : List Char) : start.decode (encode text) = (start, text) := by
  induction text with
  | nil => rfl
  | cons c text ih =>
    have happend := decode_append start (encodeChar c) (encode text)
    rw [decode_encodeChar, ih] at happend
    exact happend

end Decoder

/-! ## Chunks -/

/-- `new TextDecoder()`: a byte order mark at the start of the text is no part of it. -/
structure TextDecoder where
  decoder : Decoder
  bomSeen : Bool

namespace TextDecoder

def start : TextDecoder := ⟨.start, false⟩

/-- `decoder.decode(chunk, { stream: true })` -/
def decode (t : TextDecoder) (chunk : List ℕ) : TextDecoder × List Char :=
  let (decoder, text) := t.decoder.decode chunk
  match text with
  | [] => (⟨decoder, t.bomSeen⟩, [])
  | c :: text =>
    (⟨decoder, true⟩, if !t.bomSeen && c.toNat = 0xFEFF then text else c :: text)

/-- The texts of the chunks of a stream. -/
def decodeAll (t : TextDecoder) : List (List ℕ) → List (List Char)
  | [] => []
  | chunk :: chunks => (t.decode chunk).2 :: (t.decode chunk).1.decodeAll chunks

theorem decodeAll_seen (d : Decoder) (chunks : List (List ℕ)) :
    (decodeAll ⟨d, true⟩ chunks).flatten = (d.decode chunks.flatten).2 := by
  induction chunks generalizing d with
  | nil => rfl
  | cons chunk chunks ih =>
    have hchunk : decode ⟨d, true⟩ chunk = (⟨(d.decode chunk).1, true⟩, (d.decode chunk).2) := by
      rw [decode]
      cases htext : (d.decode chunk).2 <;> simp [htext]
    rw [decodeAll, hchunk, List.flatten_cons, ih, List.flatten_cons, Decoder.decode_append]

/-- The text without a byte order mark at its start. -/
def stripBom : List Char → List Char
  | [] => []
  | c :: text => if c.toNat = 0xFEFF then text else c :: text

/-- The text does not depend on the cuts. -/
theorem decodeAll_eq (d : Decoder) (chunks : List (List ℕ)) :
    (decodeAll ⟨d, false⟩ chunks).flatten = stripBom (d.decode chunks.flatten).2 := by
  induction chunks generalizing d with
  | nil => rfl
  | cons chunk chunks ih =>
    rw [List.flatten_cons, Decoder.decode_append, decodeAll, List.flatten_cons]
    cases htext : (d.decode chunk).2 with
    | nil =>
      have hchunk : decode ⟨d, false⟩ chunk = (⟨(d.decode chunk).1, false⟩, []) := by
        simp only [decode, htext]
      rw [hchunk, List.nil_append, List.nil_append]
      exact ih _
    | cons c text =>
      have hchunk : decode ⟨d, false⟩ chunk =
          (⟨(d.decode chunk).1, true⟩, stripBom (c :: text)) := by
        simp [decode, htext, stripBom]
      rw [hchunk, decodeAll_seen, List.cons_append, stripBom, stripBom]
      split <;> rfl

/-- A text that does not begin with a byte order mark is the text of the bytes. -/
theorem decodeAll_flatten (d : Decoder) (chunks : List (List ℕ))
    (hbom : ∀ c ∈ (d.decode chunks.flatten).2.head?, c.toNat ≠ 0xFEFF) :
    (decodeAll ⟨d, false⟩ chunks).flatten = (d.decode chunks.flatten).2 := by
  rw [decodeAll_eq]
  cases htext : (d.decode chunks.flatten).2 with
  | nil => rfl
  | cons c text => exact if_neg (hbom c (by rw [htext]; rfl))

theorem decodeAll_encode {text : List Char} {chunks : List (List ℕ)}
    (hcuts : chunks.flatten = encode text) (hbom : ∀ c ∈ text.head?, c.toNat ≠ 0xFEFF) :
    (start.decodeAll chunks).flatten = text := by
  have hdecode : (Decoder.start.decode chunks.flatten).2 = text := by
    rw [hcuts, Decoder.decode_encode]
  rw [start, decodeAll_flatten _ _ (hdecode.symm ▸ hbom), hdecode]

end TextDecoder

end Utf8

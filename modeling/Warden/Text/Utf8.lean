/-!
Reading bytes as text, as a one-pass scan.

A well-formed sequence gives its character. A sequence that breaks off, because the next byte
cannot continue it or because the bytes end, gives one replacement character for the bytes read
so far, and the byte that broke it is read afresh. A byte that starts no sequence gives one too.
-/

namespace Warden.Text.Utf8

/-- A sequence that has begun: `need` bytes are missing, the next of them between `lo` and `hi`. -/
structure Begun where
  need : Nat
  lo : Nat
  hi : Nat
  value : Nat

inductive Lead where
  | whole (c : Char)
  | begun (p : Begun)
  | bad

/-- What a byte means where a sequence may start. -/
def lead (b : UInt8) : Lead :=
  let n := b.toNat
  if n < 0x80 then .whole (Char.ofNat n)
  else if n < 0xC2 then .bad
  else if n < 0xE0 then .begun ⟨1, 0x80, 0xBF, n - 0xC0⟩
  else if n = 0xE0 then .begun ⟨2, 0xA0, 0xBF, 0⟩
  else if n = 0xED then .begun ⟨2, 0x80, 0x9F, 0xD⟩
  else if n < 0xF0 then .begun ⟨2, 0x80, 0xBF, n - 0xE0⟩
  else if n = 0xF0 then .begun ⟨3, 0x90, 0xBF, 0⟩
  else if n < 0xF4 then .begun ⟨3, 0x80, 0xBF, n - 0xF0⟩
  else if n = 0xF4 then .begun ⟨3, 0x80, 0x8F, 4⟩
  else .bad

def replacement : Char := '\ufffd'

/-- The characters read so far, last first, and the sequence that has begun. -/
structure St where
  out : List Char
  begun : Option Begun

def init : St := ⟨[], none⟩

def start (out : List Char) (b : UInt8) : St :=
  match lead b with
  | .whole c => ⟨c :: out, none⟩
  | .begun p => ⟨out, some p⟩
  | .bad => ⟨replacement :: out, none⟩

def step (s : St) (b : UInt8) : St :=
  match s.begun with
  | none => start s.out b
  | some p =>
    let n := b.toNat
    if p.lo ≤ n ∧ n ≤ p.hi then
      let v := p.value * 64 + (n - 0x80)
      if p.need = 1 then ⟨Char.ofNat v :: s.out, none⟩
      else ⟨s.out, some ⟨p.need - 1, 0x80, 0xBF, v⟩⟩
    else start (replacement :: s.out) b

def run (s : St) (bs : List UInt8) : St := bs.foldl step s

@[simp] theorem run_nil (s : St) : run s [] = s := rfl

@[simp] theorem run_cons (s : St) (b : UInt8) (bs : List UInt8) :
    run s (b :: bs) = run (step s b) bs := rfl

def finish (s : St) : List Char :=
  match s.begun with
  | none => s.out.reverse
  | some _ => (replacement :: s.out).reverse

def decode (bs : List UInt8) : List Char := finish (run init bs)

def decodeString (bs : List UInt8) : String := String.ofList (decode bs)

end Warden.Text.Utf8

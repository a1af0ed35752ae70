import Warden.Proofs.Diagnostics.Relaying
import Warden.Proofs.Log.Headings
import Warden.Proofs.Text.Lossy

/-!
The message of a line.

A line of bytes is relayed as the text it is read as (`relay_line`), and what is said here of that
text is said of the bytes alone. A heading is written in ASCII, so bytes that are no text can
neither hide one nor make one up: the severity of the message is that of the heading the bytes begin
with (`severity?_decodeString`).
-/

namespace Warden.Log

/-! ### Headings in bytes -/

def Heading.bytes (h : Heading) : List UInt8 := h.chars.flatMap Text.Utf8.encode

lemma InWord.ascii {c : Char} (h : InWord c) : c.toNat < 0x80 := by
  have hle {d : Char} (hd : d.toNat < 0x80) (h : c ≤ d) : c.toNat < 0x80 := Nat.lt_of_le_of_lt h hd
  rcases h with h | h | h | rfl
  · exact hle (by decide) h.2
  · exact hle (by decide) h.2
  · exact hle (by decide) h.2
  · decide

lemma Digits.ascii {n : Nat} (ds : Digits n) : ∀ d ∈ (ds : List Char), d.toNat < 0x80 :=
  fun d hd => InWord.ascii (.inr (.inr (.inl (ds.2.2 d hd))))

lemma Heading.ascii (h : Heading) : ∀ c ∈ h.chars, c.toNat < 0x80 := by
  have hword : ∀ c ∈ h.word.toList, c.toNat < 0x80 := fun c hc => (h.word_chars c hc).ascii
  simp only [Heading.chars, Stamp.chars, List.forall_mem_append, List.forall_mem_cons]
  and_intros
  all_goals first | exact Digits.ascii _ | exact hword | simp

lemma Heading.replacement_not_mem (h : Heading) : Text.Utf8.replacement ∉ h.chars := fun hmem =>
  absurd (h.ascii _ hmem) (by decide)

/-- The heading of the message is that of the bytes. -/
lemma severity?_decodeString (b : List UInt8) (s : Severity) :
    severity? (Text.Utf8.decodeString b) = some s ↔
      ∃ h : Heading, h.bytes <+: b ∧ s.Named h.word := by
  have hread : Text.Utf8.Lossy b (Text.Utf8.decode b) := (Text.Utf8.lossy_iff b _).mpr rfl
  rw [severity?_eq_some_iff]
  constructor
  · rintro ⟨h, rest, htext, hname⟩
    refine ⟨h, (hread.prefix_iff h.replacement_not_mem).mp ⟨rest.toList, ?_⟩, hname⟩
    have hchars := congrArg String.toList htext
    simpa [Text.Utf8.decodeString, Heading.text] using hchars.symm
  · rintro ⟨h, hbytes, hname⟩
    obtain ⟨rest, hrest⟩ := (hread.prefix_iff h.replacement_not_mem).mpr hbytes
    refine ⟨h, String.ofList rest, ?_, hname⟩
    rw [Text.Utf8.decodeString, ← hrest, String.ofList_append, Heading.text]

lemma severity?_decodeString_none (b : List UInt8) :
    severity? (Text.Utf8.decodeString b) = none ↔ ∀ h : Heading, ¬ h.bytes <+: b := by
  rw [Option.eq_none_iff_forall_ne_some]
  constructor
  · intro hnone h hbytes
    have hname : (Severity.ofWord h.word).Named h.word := (Severity.ofWord_eq_iff h.word _).mp rfl
    exact hnone _ ((severity?_decodeString b _).mpr ⟨h, hbytes, hname⟩)
  · intro hplain s hs
    obtain ⟨h, hbytes, -⟩ := (severity?_decodeString b s).mp hs
    exact hplain h hbytes

end Warden.Log

namespace Warden.Diagnostics

open Log Text.Utf8

/-! ### What is relayed for a line -/

/-- What is tried for a piece is in its place among what is tried for all pieces. -/
lemma relay_line {σ : Type} (k : Sink σ) (s : σ) {chunks ps qs : List (List UInt8)} {p : List UInt8}
    (h : cut chunks.flatten = ps ++ p :: qs) (hp : (bare p).length ≤ maxLine) :
    (relay k.watched (s, []) (Reader.ofReads (chunks.map .data) true)).sink.2 =
      ps.map (Item.entry ∘ .ofPiece) ++ (Line.classify (decodeString (bare p))).entry ::
        qs.map (Item.entry ∘ .ofPiece) := by
  have hholds : (Reader.ofReads (chunks.map .data) true).Holds chunks.flatten [] true := by
    simpa using Reader.ofReads_holds chunks [] true
  have hnonfinal (ps : List (List UInt8)) : (ps.map Item.ofPiece).any Item.isFinal = false := by
    simp [isFinal_ofPiece]
  rw [relay_sink, hholds.items_eq, upToFinal_nonfinal (hnonfinal _), Sink.watched_appendAll, h]
  simp [Item.ofPiece, hp, Item.entry]

/-- **The message of a line is its bytes, with a replacement for every ill-formed sequence.** A
line of bytes that is not too long is relayed with its message, wherever it stands in a stream
and however the stream is cut into chunks. The message is the one reading of the bytes: a
replacement character stands for every maximal part of a sequence that breaks off, and for
nothing else. Text comes through as it is. The characters of ASCII are the bytes of ASCII, in
their order, so there is no line feed among them; the message takes three times the bytes at
most. Its severity is the one that the bytes themselves begin with. -/
theorem message_of_line (b : List UInt8) (hb : lineFeed ∉ b) (hlen : b.length ≤ maxLine) :
    let m := decodeString b
    (∀ (chunks ps qs : List (List UInt8)) (p : List UInt8), cut chunks.flatten = ps ++ p :: qs →
      bare p = b → ∀ {σ : Type} (k : Sink σ) (s : σ),
        (relay k.watched (s, []) (Reader.ofReads (chunks.map .data) true)).sink.2 =
          ps.map (Item.entry ∘ .ofPiece) ++ ⟨.relayed, (Line.classify m).level, m⟩ ::
            qs.map (Item.entry ∘ .ofPiece)) ∧
    (∀ cs, Lossy b cs ↔ cs = m.toList) ∧
    (b.toByteArray.IsValidUTF8 → m.toByteArray = b.toByteArray) ∧
    (m.toList.filter (·.toNat < 0x80)).map Char.toNat =
      (b.filter (·.toNat < 0x80)).map UInt8.toNat ∧
    '\n' ∉ m.toList ∧
    m.utf8ByteSize ≤ 3 * b.length ∧
    (∀ s, severity? m = some s ↔ ∃ h : Heading, h.bytes <+: b ∧ s.Named h.word) ∧
    (severity? m = none ↔ ∀ h : Heading, ¬ h.bytes <+: b) := by
  intro m
  have hchars : m.toList = decode b := String.toList_ofList
  have hread : Lossy b m.toList := (lossy_iff b _).mpr hchars
  have hbytes : m.toByteArray = (m.toList.flatMap encode).toByteArray := by
    rw [hchars]
    exact String.toByteArray_ofList
  refine ⟨?_, fun cs => ?_, ?_, hread.ascii, ?_, ?_, severity?_decodeString b,
    severity?_decodeString_none b⟩
  · rintro chunks ps qs p hcut rfl σ k s
    exact relay_line k s hcut hlen
  · rw [lossy_iff, hchars]
  · rintro ⟨cs, hcs⟩
    -- the characters that the bytes were written from are a reading, so they are the only one
    obtain rfl : b = cs.flatMap encode := by
      rw [List.utf8Encode] at hcs
      simpa using congrArg (·.data.toList) hcs
    rw [hbytes, hread.unique (.of_chars cs)]
  · intro hmem
    have hfeed : ('\n' : Char).toNat ∈ (m.toList.filter (·.toNat < 0x80)).map Char.toNat :=
      List.mem_map_of_mem (List.mem_filter.mpr ⟨hmem, rfl⟩)
    rw [hread.ascii] at hfeed
    obtain ⟨x, hx, hval⟩ := List.mem_map.mp hfeed
    obtain rfl : x = lineFeed := UInt8.toNat_inj.mp hval
    exact hb (List.mem_filter.mp hx).1
  · have hsize : m.utf8ByteSize = (m.toList.flatMap encode).length := by
      rw [← String.size_toByteArray, hbytes, List.size_toByteArray]
    rw [hsize]
    exact hread.length_le

/-- A line with a heading, two of the three bytes of a sequence, and a letter. -/
theorem message_of_line_cut_short :
    let stamp : List Char := "2024/01/02 03:04:05 INFO ".toList
    let b : List UInt8 := stamp.flatMap encode ++ [0xE2, 0x82, 0x78]
    lineFeed ∉ b ∧ b.length ≤ maxLine ∧ Lossy b (stamp ++ [replacement, 'x']) ∧
      severity? (decodeString b) = some .info := by
  intro stamp b
  have hb : lineFeed ∉ b := by decide
  have hlen : b.length ≤ maxLine := by decide
  obtain ⟨-, hread, -, -, -, -, hseverity, -⟩ := message_of_line b hb hlen
  let digits (x y : Char) (h : ∀ d ∈ [x, y], '0' ≤ d ∧ d ≤ '9') : Digits 2 := ⟨[x, y], rfl, h⟩
  let h : Heading :=
    ⟨⟨⟨['2', '0', '2', '4'], by simp⟩, digits '0' '1' (by simp), digits '0' '2' (by simp),
      digits '0' '3' (by simp), digits '0' '4' (by simp), digits '0' '5' (by simp)⟩,
      "INFO", by decide, by simp [InWord]⟩
  refine ⟨hb, hlen, (hread _).mpr ?_, (hseverity _).mpr ⟨h, ?_, .inl rfl⟩⟩
  · rw [decodeString, String.toList_ofList]
    decide
  · decide

end Warden.Diagnostics

import Idl.Proofs.Text.Utf8
import Idl.Wire.Output
import Idl.Wire.Input

/-!
# Reading back what was written

A decoder reads a value off some bytes when it takes exactly these bytes, whatever follows them.
Readings compose in sequence, and each word, text and header is read off the bytes that its
emission appends.
-/

set_option autoImplicit false

namespace Idl.Wire

variable {α β : Type}

/-- The decoder takes exactly `bytes` and returns `a`. -/
def Reads (d : Decoder α) (bytes : Bytes) (a : α) : Prop :=
  ∀ rest, d (bytes ++ rest) = .ok a rest

/-- The decoder fails on `bytes`, whatever follows them. -/
def Fails (d : Decoder α) (bytes : Bytes) (fault : Fault) : Prop :=
  ∀ rest, ∃ left, d (bytes ++ rest) = .error fault left

theorem Reads.pure (a : α) : Reads (Pure.pure a) [] a := fun _ => rfl

theorem Reads.bind {d : Decoder α} {f : α → Decoder β} {front back : Bytes} {a : α} {b : β}
    (hd : Reads d front a) (hf : Reads (f a) back b) : Reads (d >>= f) (front ++ back) b := by
  intro rest
  change EStateM.bind d f _ = _
  rw [EStateM.bind, List.append_assoc, hd (back ++ rest)]
  exact hf rest

theorem Reads.bind_nil {d : Decoder α} {f : α → Decoder β} {bytes : Bytes} {a : α} {b : β}
    (hd : Reads d bytes a) (hf : f a = Pure.pure b) : Reads (d >>= f) bytes b := by
  have h : Reads (f a) [] b := hf ▸ Reads.pure b
  have hb := hd.bind h
  rwa [List.append_nil] at hb

theorem Reads.map {d : Decoder α} {bytes : Bytes} {a : α} (h : Reads d bytes a) (f : α → β) :
    Reads (f <$> d) bytes (f a) := by
  intro rest
  change EStateM.map f d _ = _
  rw [EStateM.map, h rest]

theorem Reads.unique {d : Decoder α} {bytes : Bytes} {a b : α} (ha : Reads d bytes a)
    (hb : Reads d bytes b) : a = b := by
  have h := (ha []).symm.trans (hb [])
  cases h
  rfl

theorem Reads.fails_bind {d : Decoder α} {f : α → Decoder β} {front back : Bytes} {a : α}
    {fault : Fault} (hd : Reads d front a) (hf : Fails (f a) back fault) :
    Fails (d >>= f) (front ++ back) fault := by
  intro rest
  obtain ⟨left, h⟩ := hf rest
  refine ⟨left, ?_⟩
  change EStateM.bind d f _ = _
  rw [EStateM.bind, List.append_assoc, hd (back ++ rest)]
  exact h

theorem Fails.bind {d : Decoder α} {front : Bytes} {fault : Fault} (hd : Fails d front fault)
    (f : α → Decoder β) (back : Bytes) : Fails (d >>= f) (front ++ back) fault := by
  intro rest
  obtain ⟨left, h⟩ := hd (back ++ rest)
  refine ⟨left, ?_⟩
  change EStateM.bind d f _ = _
  rw [EStateM.bind, List.append_assoc, h]

theorem take_reads (bytes : Bytes) : Reads (Decoder.take bytes.length) bytes bytes := by
  intro rest
  simp [Decoder.take]

theorem word_reads (width n : Nat) (h : n < Nat.pow 256 width) :
    Reads (Decoder.word width) (bigEndian width n) n := by
  have hw := take_reads (bigEndian width n)
  rw [bigEndian_length] at hw
  exact hw.bind_nil (by rw [ofBigEndian_bigEndian width n h])

theorem tag_reads (b : UInt8) : Reads (Decoder.word 1) [b] b.toNat := by
  have h := word_reads 1 b.toNat b.toNat_lt
  rwa [bigEndian, bigEndian, UInt8.ofNat_toNat] at h

theorem bool_reads (mark : UInt8) : Reads Decoder.bool [mark] (decide (mark ≠ 0)) := by
  apply (tag_reads mark).bind_nil
  simp [← UInt8.toNat_inj]

theorem byte_reads (n : Int8) : Reads Decoder.byte (bigEndian 1 n.toUInt8.toNat) n :=
  (word_reads 1 _ n.toUInt8.toNat_lt).bind_nil (by rw [UInt8.ofNat_toNat]; rfl)

theorem i16_reads (n : Int16) : Reads Decoder.i16 (bigEndian 2 n.toUInt16.toNat) n :=
  (word_reads 2 _ n.toUInt16.toNat_lt).bind_nil (by rw [UInt16.ofNat_toNat]; rfl)

theorem i32_reads (n : Int32) : Reads Decoder.i32 (bigEndian 4 n.toUInt32.toNat) n :=
  (word_reads 4 _ n.toUInt32.toNat_lt).bind_nil (by rw [UInt32.ofNat_toNat]; rfl)

theorem i64_reads (n : Int64) : Reads Decoder.i64 (bigEndian 8 n.toUInt64.toNat) n :=
  (word_reads 8 _ n.toUInt64.toNat_lt).bind_nil (by rw [UInt64.ofNat_toNat]; rfl)

theorem double_reads (d : Double) : Reads Decoder.double (bigEndian 8 d.bits.toNat) d :=
  (word_reads 8 _ d.bits.toNat_lt).bind_nil (by rw [UInt64.ofNat_toNat])

theorem kind_reads (k : Kind) : Reads Decoder.kind [k.tag] k := by
  apply (tag_reads k.tag).bind_nil
  simp only [UInt8.ofNat_toNat, Kind.ofTag?_tag]

theorem size_reads (what : Sized) (n : Nat) (h : n < 0x80000000) :
    Reads (Decoder.size what) (bigEndian 4 n) n := by
  have hn : (Int32.ofNat n).toInt = n := Int32.toInt_ofNat_of_lt h
  have hw : (Int32.ofNat n).toUInt32.toNat = n := by
    rw [Int32.toUInt32_ofNat']
    exact UInt32.toNat_ofNat_of_lt' (Nat.lt_trans h (by decide))
  have hi := i32_reads (Int32.ofNat n)
  rw [hw] at hi
  apply hi.bind_nil
  rw [if_neg (by omega), hn]
  rfl

theorem string_reads (s : String) (h : (Text.utf8 s).length < 0x80000000) :
    Reads Decoder.string (bigEndian 4 (Text.utf8 s).length ++ Text.utf8 s) s := by
  apply (size_reads .string _ h).bind
  apply (take_reads (Text.utf8 s)).bind_nil
  rw [Text.ofUtf8_utf8]

theorem field_reads (k : Kind) (id : Int16) (h : k ≠ .stop) :
    Reads Decoder.field (k.tag :: bigEndian 2 id.toUInt16.toNat) (some ⟨k, id⟩) := by
  apply (kind_reads k).bind
  rw [if_neg h]
  exact (i16_reads id).bind_nil rfl

theorem stop_reads : Reads Decoder.field [Kind.stop.tag] none :=
  (kind_reads .stop).bind_nil rfl

theorem items_reads (what : Sized) (k : Kind) (n : Nat) (h : n < 0x80000000) :
    Reads (Decoder.items what) (k.tag :: bigEndian 4 n) (k, n) :=
  (kind_reads k).bind ((size_reads what n h).bind_nil rfl)

theorem entries_reads (k v : Kind) (n : Nat) (h : n < 0x80000000) :
    Reads Decoder.entries (k.tag :: v.tag :: bigEndian 4 n) (k, v, n) :=
  (kind_reads k).bind ((kind_reads v).bind ((size_reads .map n h).bind_nil rfl))

/-- The bytes of the header of a message. The third byte is of no account. -/
def MessageHeader.encode (header : MessageHeader) (spare : UInt8) : Bytes :=
  [0x80, 0x01, spare, header.kind.tag] ++ bigEndian 4 (Text.utf8 header.name).length ++
    Text.utf8 header.name ++ bigEndian 4 header.seqId.toUInt32.toNat

theorem bigEndian_version {word : Nat} (version : word / 0x10000 = 0x8001) :
    bigEndian 4 word = [0x80, 0x01, UInt8.ofNat (word / 256), UInt8.ofNat word] := by
  have first : UInt8.ofNat (word / 256 / 256 / 256) = 0x80 := by
    rw [← UInt8.toNat_inj, UInt8.toNat_ofNat']
    simp
    omega
  have second : UInt8.ofNat (word / 256 / 256) = 0x01 := by
    rw [← UInt8.toNat_inj, UInt8.toNat_ofNat']
    simp
    omega
  change [UInt8.ofNat (word / 256 / 256 / 256), UInt8.ofNat (word / 256 / 256), _, _] = _
  rw [first, second]

theorem message_reads (header : MessageHeader) (spare : UInt8)
    (short : (Text.utf8 header.name).length ≤ 0x7FFFFFFF) :
    Reads Decoder.message (header.encode spare) header := by
  obtain ⟨word, hword⟩ : ∃ word, word = 0x80010000 + spare.toNat * 256 + header.kind.tag.toNat :=
    ⟨_, rfl⟩
  have third := spare.toNat_lt
  have fourth := header.kind.tag.toNat_lt
  have version : word / 0x10000 = 0x8001 := by omega
  have small : word < Nat.pow 256 4 := by
    change word < 0x100000000
    omega
  have middle : UInt8.ofNat (word / 256) = spare := by
    rw [← UInt8.toNat_inj, UInt8.toNat_ofNat']
    omega
  have tag : UInt8.ofNat word = header.kind.tag := by
    rw [← UInt8.toNat_inj, UInt8.toNat_ofNat']
    omega
  have front := word_reads 4 word small
  rw [bigEndian_version version, middle, tag] at front
  rw [MessageHeader.encode]
  simp only [List.append_assoc]
  apply front.bind
  simp only [version, tag, MessageKind.ofTag?_tag]
  exact (string_reads header.name (Nat.lt_succ_of_le short)).bind
    ((i32_reads header.seqId).bind_nil rfl)

section Emissions

theorem emission_append {e : Emission} (h : e.fault = none) (f : Emission) :
    e ++ f = ⟨e.bytes ++ f.bytes, f.fault⟩ := by
  obtain ⟨bytes, fault⟩ := e
  obtain rfl : fault = none := h
  rfl

theorem emission_all {write : α → Emission} {bytes : α → Bytes} (as : List α)
    (h : ∀ a ∈ as, write a = ⟨bytes a, none⟩) :
    Emission.all (as.map write) = ⟨as.flatMap bytes, none⟩ := by
  induction as with
  | nil => rfl
  | cons a as ih =>
    rw [List.map_cons, Emission.all, h a List.mem_cons_self,
      ih fun b hb => h b (List.mem_cons_of_mem _ hb)]
    rfl

theorem emission_size (what : Sized) (n : Nat) (h : n ≤ 0x7FFFFFFF) :
    Emission.size what n = ⟨bigEndian 4 n, none⟩ :=
  if_pos (Nat.lt_succ_of_le h)

theorem emission_string (s : String) (h : (Text.utf8 s).length ≤ 0x7FFFFFFF) :
    Emission.string s = ⟨bigEndian 4 (Text.utf8 s).length ++ Text.utf8 s, none⟩ := by
  rw [Emission.string, if_pos (by omega), emission_size _ _ h]
  rfl

structure Conveys (e : Emission) (d : Decoder α) (a : α) : Prop where
  written : e.fault = none
  reads : Reads d e.bytes a

theorem Conveys.whole {e : Emission} {d : Decoder α} {a : α} (h : Conveys e d a) :
    d e.bytes = .ok a [] := by
  have read := h.reads []
  rwa [List.append_nil] at read

theorem Conveys.append {e f : Emission} {d : Decoder α} {k : α → Decoder β} {a : α} {b : β}
    (he : Conveys e d a) (hf : Conveys f (k a) b) : Conveys (e ++ f) (d >>= k) b := by
  rw [emission_append he.written]
  exact ⟨hf.written, he.reads.bind hf.reads⟩

theorem bigEndian_messageWord (k : MessageKind) :
    bigEndian 4 (Emission.messageWord k) = [0x80, 0x01, 0, k.tag] := by
  cases k <;> rfl

theorem emission_message (header : MessageHeader)
    (short : (Text.utf8 header.name).length ≤ 0x7FFFFFFF) :
    Emission.message header.kind header.name header.seqId = ⟨header.encode 0, none⟩ := by
  rw [Emission.message, emission_string _ short, bigEndian_messageWord]
  simp only [MessageHeader.encode, List.append_assoc]
  rfl

theorem message_conveys (k : MessageKind) (name : String) (seqId : Int32)
    (h : (Text.utf8 name).length ≤ 0x7FFFFFFF) :
    Conveys (Emission.message k name seqId) Decoder.message ⟨name, k, seqId⟩ := by
  rw [emission_message ⟨name, k, seqId⟩ h]
  exact ⟨rfl, message_reads ⟨name, k, seqId⟩ 0 h⟩

end Emissions

end Idl.Wire

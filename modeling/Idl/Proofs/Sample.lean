import Idl.Proofs.Code.Generation
import Idl.Proofs.Schema.Ident
import Idl.Proofs.Text.Quoted
import Idl.Proofs.Wire.Skip
import Idl.Sample
import Mathlib.Algebra.Ring.Int.Defs
import Mathlib.Data.Nat.Choose.Basic

/-!
# Samples of every size

The schema with many structs is well formed however many there are: the names of its structs and
functions end in different numbers, and these numbers are kept by every name that is made from them.
The sample record is a well-formed struct as long as its list is not too long to be announced, so
that it is skipped as a whole, and its numbers are read back and added up.
-/

set_option autoImplicit false

namespace Idl.Sample

theorem numbered_nodup (word : String) (plain : word.toList.all (fun c => !c.isDigit) = true)
    (n : Nat) : ((List.range n).map fun i => word ++ toString i).Nodup := by
  apply List.Nodup.map _ List.nodup_range
  intro i j same
  exact (Text.word_natural_inj plain plain same).2

def methodWords : List String :=
  ["put", "send_put", "recv_put"]

theorem snake_put (i : Nat) : Ident.snake ("put" ++ toString i) = "put" ++ toString i := by
  apply Ident.snake_eq_self
  intro c member
  rw [String.toList_append, List.mem_append] at member
  rcases member with letter | digit
  · have small : "put".toList.all (fun c => !Text.isUpper c) = true := by decide
    simpa using List.all_eq_true.mp small c letter
  · rw [Text.toList_toString_nat] at digit
    exact Ident.isUpper_of_isDigit (Text.isDigit_of_mem_toString c digit)

theorem put_not_mem (words : List String) (other : ∀ word ∈ words, ¬ "put".toList <+: word.toList)
    (i : Nat) : "put" ++ toString i ∉ words := by
  intro member
  apply other _ member
  rw [String.toList_append]
  exact List.prefix_append _ _

theorem field_put (i : Nat) : Ident.field ("put" ++ toString i) = "put" ++ toString i := by
  have unmarked := put_not_mem Ident.unmarkable (by decide) i
  have unreserved := put_not_mem Ident.reserved (by decide) i
  rw [← List.contains_iff_mem] at unmarked unreserved
  rw [Ident.field, snake_put, Ident.escape, if_neg unmarked, if_neg unreserved]

theorem clientMethod_put (i : Nat) :
    Ident.clientMethod ("put" ++ toString i) = "put" ++ toString i := by
  have other := put_not_mem Ident.clientOwn (by decide) i
  rw [← List.contains_iff_mem] at other
  rw [Ident.clientMethod, field_put, if_neg other]

theorem prefixed_put (lead : String) (i : Nat) :
    Ident.prefixed lead ("put" ++ toString i) = lead ++ "_put" ++ toString i := by
  have word : "_put" = "_" ++ "put" := rfl
  rw [Ident.prefixed, snake_put, word]
  simp only [String.append_assoc]

theorem wideFunction_adds {i : Nat} {method : String} (adds : (wideFunction i).Adds method) :
    ∃ word ∈ methodWords, method = word ++ toString i := by
  unfold FunctionDecl.Adds wideFunction at adds
  dsimp only at adds
  rw [field_put, clientMethod_put, prefixed_put, prefixed_put] at adds
  rcases adds with rfl | rfl | rfl | ⟨-, rfl⟩
  · exact ⟨"put", by decide, rfl⟩
  · exact ⟨"put", by decide, rfl⟩
  · exact ⟨"send_put", by decide, rfl⟩
  · exact ⟨"recv_put", by decide, rfl⟩

theorem wideFunction_apart {i j : Nat} (less : i < j) (method : String)
    (first : (wideFunction i).Adds method) : ¬ (wideFunction j).Adds method := by
  have plain : ∀ word ∈ methodWords, word.toList.all (fun c => !c.isDigit) = true := by decide
  intro second
  obtain ⟨word, known, rfl⟩ := wideFunction_adds first
  obtain ⟨word', known', same⟩ := wideFunction_adds second
  have numbers := (Text.word_natural_inj (plain word known) (plain word' known') same).2
  omega

theorem wide_typeNames (n : Nat) : ((wideSchema n).typedefs.map (·.name) ++
    (wideSchema n).enums.map (·.name) ++ (wideSchema n).structs.map (·.name)).Nodup := by
  have records : (wideSchema n).structs.map (·.name) =
      "Failure" :: (List.range n).map fun i => "Record" ++ toString i := by
    rw [wideSchema, List.map_cons, List.map_map]
    rfl
  have other (word : String) (different : word.toList.head? ≠ some 'R') :
      word ∉ (List.range n).map fun i => "Record" ++ toString i := by
    intro member
    obtain ⟨i, -, same⟩ := List.mem_map.mp member
    apply different
    rw [← same, String.toList_append]
    rfl
  rw [records]
  change ("Level" :: "Failure" :: _).Nodup
  rw [List.nodup_cons, List.nodup_cons, List.mem_cons, not_or]
  exact ⟨⟨by decide, other "Level" (by decide)⟩, other "Failure" (by decide),
    numbered_nodup "Record" (by decide) n⟩

theorem record_declared {n i : Nat} (inside : i < n) :
    ∃ d ∈ (wideSchema n).structs, d.name = "Record" ++ toString i := by
  refine ⟨wideRecord i, List.mem_cons_of_mem _ (List.mem_map_of_mem ?_), rfl⟩
  exact List.mem_range.mpr inside

theorem failure_declared (n : Nat) : ∃ d ∈ (wideSchema n).structs, d.name = "Failure" :=
  ⟨_, List.mem_cons_self, rfl⟩

theorem level_declared (n : Nat) : ∃ d ∈ (wideSchema n).enums, d.name = "Level" :=
  ⟨_, List.mem_cons_self, rfl⟩

theorem wideRecord_wellFormed (n i : Nat) :
    (wideSchema n).RecordWellFormed (wideRecord i).fields where
  ids := by
    change ([1, 2, 3, 4] : List Int16).Nodup
    decide
  names := by
    change ["id", "level", "tags", "history"].Nodup
    decide
  idents := by
    change (["id", "level", "tags", "history"].map Ident.field).Nodup
    decide
  valued := by
    intro f member
    simp only [wideRecord, List.mem_cons, List.not_mem_nil, or_false] at member
    rcases member with rfl | rfl | rfl | rfl <;> simp [Ty.resolve]
  types := by
    intro f member
    simp only [wideRecord, List.mem_cons, List.not_mem_nil, or_false] at member
    have level := level_declared n
    rcases member with rfl | rfl | rfl | rfl <;>
      simp [Schema.Admits, Ty.parts, Schema.Supports, Ty.resolve, level]

theorem failure_wellFormed (n : Nat) : (wideSchema n).RecordWellFormed
    [{ id := 1, name := "code", ty := .i32 }, { id := 2, name := "reason", ty := .string }] where
  ids := by decide
  names := by decide
  idents := by decide
  valued := by simp [Ty.resolve]
  types := by simp [Schema.Admits, Ty.parts, Schema.Supports]

theorem single_wellFormed {s : Schema} {f : Field} (valued : f.ty.resolve ≠ .void)
    (admits : s.Admits f.ty) : s.RecordWellFormed [f] where
  ids := by simp
  names := by simp
  idents := by simp
  valued := by simpa using valued
  types := by simpa using admits

theorem wideFunction_wellFormed {n i : Nat} (inside : i < n) :
    (wideSchema n).FunctionWellFormed (wideFunction i) where
  oneway := nofun
  returns := by simp [wideFunction, Schema.Admits, Ty.parts, Schema.Supports]
  args := by
    apply single_wellFormed
    · simp [Ty.resolve]
    · simpa [Schema.Admits, Ty.parts, Schema.Supports] using record_declared inside
  throws := by
    apply single_wellFormed
    · simp [Ty.resolve]
    · simpa [Schema.Admits, Ty.parts, Schema.Supports] using failure_declared n
  thrown := by simp [wideFunction, Ty.resolve]

def store (n : Nat) : ServiceDecl :=
  { name := "Store", functions := (List.range n).map wideFunction }

theorem store_wellFormed (n : Nat) : (wideSchema n).ServiceWellFormed (store n) where
  lineage := by
    refine ⟨[], .root rfl, by simp, ?_⟩
    rw [Schema.MethodsApart, List.flatMap_singleton, store, List.pairwise_map]
    exact List.pairwise_lt_range.imp wideFunction_apart
  names := by
    have names : (store n).functions.map (·.name) =
        (List.range n).map fun i => "put" ++ toString i := by
      rw [store, List.map_map]
      rfl
    rw [names]
    exact numbered_nodup "put" (by decide) n
  functions := by
    intro f member
    obtain ⟨i, inside, rfl⟩ := List.mem_map.mp member
    exact wideFunction_wellFormed (List.mem_range.mp inside)

theorem wideSchema_wellFormed (n : Nat) : (wideSchema n).WellFormed where
  typeNames := wide_typeNames n
  serviceNames := by simp [wideSchema]
  constantNames := by simp [wideSchema]
  enums := by
    intro d member
    obtain rfl := List.mem_singleton.mp member
    decide
  typedefs := nofun
  constants := nofun
  structs := by
    intro d member
    rcases List.mem_cons.mp member with rfl | record
    · exact failure_wellFormed n
    · obtain ⟨i, -, rfl⟩ := List.mem_map.mp record
      exact wideRecord_wellFormed n i
  services := by
    intro d member
    obtain rfl := List.mem_singleton.mp member
    exact store_wellFormed n

theorem wideSchema_renders (n : Nat) :
    ∀ d ∈ (wideSchema n).structs, ∀ f ∈ d.fields, f.DefaultRenders (wideSchema n) := by
  intro d member f inFields v given
  rcases List.mem_cons.mp member with rfl | record
  · simp only [List.mem_cons, List.not_mem_nil, or_false] at inFields
    rcases inFields with rfl | rfl <;> cases given
  · obtain ⟨i, -, rfl⟩ := List.mem_map.mp record
    simp only [wideRecord, List.mem_cons, List.not_mem_nil, or_false] at inFields
    rcases inFields with rfl | rfl | rfl | rfl <;> cases given
    exact ⟨_, rfl⟩

theorem store_page (n : Nat) (o : Code.Options) :
    ∃ page, Code.servicePage o (wideSchema n) (store n) = .ok page := by
  apply Code.servicePage_ok
  apply Code.serviceVerdict_ok (wideSchema_wellFormed n).serviceNames (store_wellFormed n)
  · intro f member a inArgs v given
    obtain ⟨i, -, rfl⟩ := List.mem_map.mp member
    cases List.mem_singleton.mp inArgs
    cases given
  · intro f member x inThrows v given
    obtain ⟨i, -, rfl⟩ := List.mem_map.mp member
    cases List.mem_singleton.mp inThrows
    cases given

theorem wideSchema_generates (n : Nat) (o : Code.Options) : ∃ page,
    Code.servicePage o (wideSchema n) (store n) = .ok page ∧
    Code.generate o (wideSchema n) = .ok [⟨"types.rs", (Code.typesPage o (wideSchema n)).text⟩,
      ⟨"constants.rs", (Code.constantsPage o (wideSchema n)).text⟩, ⟨"store.rs", page.text⟩,
      ⟨"mod.rs", "pub mod types;\npub mod constants;\npub mod store;\n"⟩] := by
  obtain ⟨page, made⟩ := store_page n o
  have constants : ∀ d ∈ (wideSchema n).constants,
      ∃ line, Code.constLine (wideSchema n) d = .ok line := by
    intro d member
    cases member
  have structs : ∀ d ∈ (wideSchema n).structs, Code.structVerdict (wideSchema n) d = .ok () := by
    intro d member
    exact Code.structVerdict_ok ((wideSchema_wellFormed n).structs d member).containsVoid
      (wideSchema_renders n d member)
  have pages : ∀ d ∈ (wideSchema n).services, Code.servicePage o (wideSchema n) d = .ok page := by
    intro d member
    obtain rfl := List.mem_singleton.mp member
    exact made
  refine ⟨page, made, ?_⟩
  have name : Ident.field (store n).name = "store" := by
    change Ident.field "Store" = "store"
    decide
  have services : (wideSchema n).services = [store n] := rfl
  rw [Code.generate_eq o constants structs pages, services, List.map_singleton, name]
  simp [Code.State.units, String.join]

open Wire Wire.Tree

def numbers (n : Nat) : List Int32 :=
  (List.range n).map Int32.ofNat

def fields (n : Nat) : List Record :=
  [(1, .list .i32 ((numbers n).map fun k => .scalar (.i32 k))), (2, .scalar (.string label))]

theorem label_short : (Text.utf8 label).length ≤ 0x7FFFFFFF := by
  decide

theorem numbers_length (n : Nat) : (numbers n).length = n := by
  simp [numbers]

theorem record_eq {n : Nat} (small : n ≤ 0x7FFFFFFF) :
    record n = ⟨(Tree.struct (fields n)).encode, none⟩ := by
  have count : Emission.items .list .i32 (n % 0x100000000) =
      ⟨Kind.i32.tag :: bigEndian 4 n, none⟩ := by
    rw [Nat.mod_eq_of_lt (by omega), Emission.items, emission_size _ _ small]
    rfl
  have items : Emission.all ((List.range n).map fun i => Emission.i32 (Int32.ofNat i)) =
      ⟨(numbers n).flatMap fun k => (Scalar.i32 k).encode, none⟩ := by
    have each : (List.range n).map (fun i => Emission.i32 (Int32.ofNat i)) =
        (numbers n).map Emission.i32 := by
      rw [numbers, List.map_map]
      rfl
    rw [each]
    exact emission_all (numbers n) fun k _ => rfl
  have list : encodeItems ((numbers n).map fun k => Tree.scalar (.i32 k)) =
      (numbers n).flatMap fun k => (Scalar.i32 k).encode := by
    rw [encodeItems_eq, List.flatMap_map]
    simp only [encode]
  rw [record, count, items, emission_string label label_short]
  simp [fields, encode, encodeRecords, list, numbers_length, Tree.kind, Scalar.kind, Scalar.encode,
    Emission.field, Emission.kind, Emission.i16, Emission.stop, emission_append]

theorem fields_wellFormed {n : Nat} (small : n ≤ 0x7FFFFFFF) :
    (Tree.struct (fields n)).WellFormed := by
  have items : (Tree.list .i32 ((numbers n).map fun k => .scalar (.i32 k))).WellFormed := by
    refine .list ?_ ?_ ?_
    · rw [List.length_map, numbers_length]
      exact small
    · exact List.forall_mem_map.mpr fun k _ => rfl
    · exact List.forall_mem_map.mpr fun k _ => .scalar trivial
  apply Tree.WellFormed.struct
  simp only [fields, List.forall_mem_cons]
  exact ⟨items, .scalar label_short, nofun⟩

theorem fields_depth (n : Nat) : (Tree.struct (fields n)).depth ≤ 3 := by
  have items : depthItems ((numbers n).map fun k => Tree.scalar (.i32 k)) ≤ 1 := by
    rw [depthItems_le]
    exact List.forall_mem_map.mpr fun k _ => Nat.le_refl 1
  simp only [fields, depth, depthRecords]
  omega

theorem addNumbers_reads (ks : List Int32) (sum : Int64) :
    Reads (addNumbers ks.length sum) (ks.flatMap fun k => (Scalar.i32 k).encode)
      (sum + (ks.map Int32.toInt64).sum) := by
  induction ks generalizing sum with
  | nil =>
    rw [List.map_nil, List.sum_nil, Int64.add_zero]
    exact Reads.pure sum
  | cons k rest ih =>
    rw [List.map_cons, List.sum_cons, ← Int64.add_assoc]
    exact (i32_reads k).bind (ih (sum + k.toInt64))

def added (n : Nat) (r : Record) : Int64 :=
  if r.header = ⟨.list, 1⟩ then ((numbers n).map Int32.toInt64).sum else 0

theorem addField_reads {n : Nat} (small : n ≤ 0x7FFFFFFF) (r : Record) (member : r ∈ fields n)
    (sum : Int64) : Reads (addField r.header sum) r.2.encode (sum + added n r) := by
  simp only [fields, List.mem_cons, List.not_mem_nil, or_false] at member
  rcases member with rfl | rfl
  · have items := addNumbers_reads (numbers n) sum
    have header : Record.header (1, .list .i32 ((numbers n).map fun k => .scalar (.i32 k))) =
        ⟨.list, 1⟩ := rfl
    rw [numbers_length] at items
    rw [addField, added, if_pos header, if_pos header, encode, encodeItems_eq, List.flatMap_map,
      List.length_map, numbers_length]
    simp only [encode]
    exact (items_reads .list .i32 n (Nat.lt_succ_of_le small)).bind items
  · rw [addField, added, if_neg (by decide), if_neg (by decide), Int64.add_zero]
    exact (skip_scalar (.string label) label_short 63).bind_nil rfl

theorem numbers_sum {n : Nat} (small : n ≤ 0x7FFFFFFF) :
    ((numbers n).map Int32.toInt64).sum = Int64.ofNat (n * (n - 1) / 2) := by
  induction n with
  | zero => rfl
  | succ n ih =>
    have fits : (n : Int) ≤ Int32.maxValue.toInt := by
      have largest : Int32.maxValue.toInt = 0x7FFFFFFF := rfl
      omega
    have split : numbers (n + 1) = numbers n ++ [Int32.ofNat n] := by
      simp [numbers, List.range_succ]
    rw [split, List.map_append, List.sum_append, ih (by omega), Nat.triangle_succ, Int64.ofNat_add,
      List.map_singleton, List.sum_singleton, Int32.toInt64_ofNat' fits]

theorem sum_reads {n : Nat} (small : n ≤ 0x7FFFFFFF) :
    Reads Sample.sum (Tree.struct (fields n)).encode (Int64.ofNat (n * (n - 1) / 2)) := by
  obtain ⟨total, count, reads⟩ := foldFields_records addField (fields n)
    (fun done sum => sum = (done.map (added n)).sum)
    (fun done r sum member soFar => ⟨_, addField_reads small r member sum, by
      rw [List.map_append, List.sum_append, soFar, List.map_singleton, List.sum_singleton]⟩) 0 rfl
  have whole : total = Int64.ofNat (n * (n - 1) / 2) := by
    rw [count, ← numbers_sum small]
    simp [fields, added, Record.header, Tree.kind, Scalar.kind]
  rw [← whole]
  exact reads

/-- However many structs there are, the schema passes the check, and it comes out as four units:
the types, the constants, the one service, and the unit that declares them. As long as its size
fits a signed word of thirty-two bits, the sample record is written, the sum of its numbers is
read back from the bytes, within a signed word of sixty-four bits, and the record is skipped to
its last byte. -/
theorem samples_of_every_size (n : Nat) :
    (wideSchema n).check = .ok () ∧
    (∀ o : Code.Options, ∃ page, Code.servicePage o (wideSchema n) (store n) = .ok page ∧
      Code.generate o (wideSchema n) = .ok [⟨"types.rs", (Code.typesPage o (wideSchema n)).text⟩,
        ⟨"constants.rs", (Code.constantsPage o (wideSchema n)).text⟩, ⟨"store.rs", page.text⟩,
        ⟨"mod.rs", "pub mod types;\npub mod constants;\npub mod store;\n"⟩]) ∧
    (n ≤ 0x7FFFFFFF →
      (record n).fault = none ∧
      Sample.sum (record n).bytes = .ok (Int64.ofNat (n * (n - 1) / 2)) [] ∧
      n * (n - 1) / 2 < 0x8000000000000000 ∧ skip .struct (record n).bytes = .ok () []) := by
  refine ⟨Schema.check_of_wellFormed (wideSchema_wellFormed n), wideSchema_generates n, ?_⟩
  intro small
  have summed := sum_reads small []
  have skipped := (skip_passes _ (fields_wellFormed small) maxDepth).reads
    (Nat.le_trans (fields_depth n) (by decide)) []
  have bound : n * (n - 1) ≤ 0x7FFFFFFF * 0x7FFFFFFF := Nat.mul_le_mul small (by omega)
  rw [List.append_nil] at summed skipped
  rw [record_eq small]
  exact ⟨rfl, summed, by omega, skipped⟩

theorem samples_of_every_size_largest :
    0x7FFFFFFF ≤ 0x7FFFFFFF ∧ (record 0x7FFFFFFF).fault = none ∧
    Sample.sum (record 0x7FFFFFFF).bytes = .ok 2305843005992468481 [] ∧
    skip .struct (record 0x7FFFFFFF).bytes = .ok () [] := by
  obtain ⟨written, summed, -, skipped⟩ := (samples_of_every_size 0x7FFFFFFF).2.2 (Nat.le_refl _)
  exact ⟨Nat.le_refl _, written, summed, skipped⟩

end Idl.Sample

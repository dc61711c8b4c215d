import Nelix.Core.Framing
import Mathlib.Data.Finset.Basic
import Mathlib.Data.List.Sort
import Mathlib.Data.Multiset.MapFold
import Mathlib.Data.String.Basic

/-!
# The build id

What `build_id` gives to the hash, for a wheel, the lock, the interpreter and the first-party wheels. A
wheel is a zip; what counts of it is its payload, which tells the bytes of every member.

## Main results

`buildStream_iff`: two streams are the same exactly when the payloads, the locks, the interpreters and
the first-party payloads are.
-/
namespace Nelix.Runtime

open Core (Framed)

/-! ### Bytes -/

/-- `s.encode()` -/
def encode (s : String) : List UInt8 := s.toList.flatMap String.utf8EncodeChar

theorem encode_inj {s t : String} (same : encode s = encode t) : s = t := by
  have bytes : s.toList.utf8Encode = t.toList.utf8Encode := congrArg List.toByteArray same
  rw [String.utf8Encode_toList, String.utf8Encode_toList] at bytes
  exact String.toByteArray_inj.mp bytes

/-- There is no NUL in the text. -/
def Plain (s : String) : Prop := '\x00' ∉ s.toList

instance : DecidablePred Plain := fun s => inferInstanceAs (Decidable ('\x00' ∉ s.toList))

theorem zero_utf8 {c : Char} (zero : 0 ∈ String.utf8EncodeChar c) : c = '\x00' := by
  have none_ : ∀ n : ℕ, UInt8.ofNat n = 0 → n % 256 = 0 := fun n same => by
    have value := congrArg UInt8.toNat same
    simpa using value
  have small : c.val.toNat = 0 → c = '\x00' := fun zero => Char.toNat_inj.mp zero
  rw [String.utf8EncodeChar] at zero
  split at zero
  · have value := none_ _ (List.mem_singleton.mp zero).symm
    exact small (by omega)
  · split at zero
    · simp only [List.mem_cons, List.not_mem_nil, or_false] at zero
      rcases zero with same | same <;> have value := none_ _ same.symm <;> omega
    · split at zero <;> simp only [List.mem_cons, List.not_mem_nil, or_false] at zero
      · rcases zero with same | same | same <;> have value := none_ _ same.symm <;> omega
      · rcases zero with same | same | same | same <;> have value := none_ _ same.symm <;> omega

theorem Plain.encode {s : String} (plain : Plain s) : 0 ∉ encode s := by
  intro zero
  obtain ⟨c, inside, here⟩ := List.mem_flatMap.mp zero
  exact plain (zero_utf8 here ▸ inside)

/-- What SHA-256 gives. -/
abbrev Digest := { b : List UInt8 // b.length = 32 }

def hexDigit (n : ℕ) : Char := "0123456789abcdef".toList.getD n '0'

/-- `h.hexdigest()` -/
def hexdigest (d : Digest) : String :=
  String.ofList (d.1.flatMap fun b => [hexDigit (b.toNat / 16), hexDigit (b.toNat % 16)])

theorem hexDigit_inj : ∀ m < 16, ∀ n < 16, hexDigit m = hexDigit n → m = n := by decide

theorem hexDigit_solid : ∀ n < 16, hexDigit n ≠ '\x00' := by decide

theorem hexdigest_inj {d e : Digest} (same : hexdigest d = hexdigest e) : d = e := by
  have framed : Framed (fun _ : UInt8 => True)
      fun b => [hexDigit (b.toNat / 16), hexDigit (b.toNat % 16)] := by
    refine (Framed.width 2).comp (fun _ _ => rfl) fun b c _ _ same => ?_
    have left : b.toNat < 256 := b.toNat_lt
    have right : c.toNat < 256 := c.toNat_lt
    obtain ⟨high, rest⟩ := List.cons.inj same
    have high := hexDigit_inj _ (by omega) _ (by omega) high
    have low := hexDigit_inj _ (by omega) _ (by omega) (List.cons.inj rest).1
    exact UInt8.toNat_inj.mp (by omega)
  exact Subtype.ext (framed.flatMap_inj (fun _ => List.cons_ne_nil _ _) (fun _ _ => trivial)
    (fun _ _ => trivial) (String.ofList_injective same))

theorem plain_hexdigest (d : Digest) : Plain (hexdigest d) := by
  intro zero
  rw [hexdigest, String.toList_ofList] at zero
  obtain ⟨b, -, digit⟩ := List.mem_flatMap.mp zero
  have byte : b.toNat < 256 := b.toNat_lt
  simp only [List.mem_cons, List.not_mem_nil, or_false] at digit
  rcases digit with high | low
  · exact hexDigit_solid _ (by omega) high.symm
  · exact hexDigit_solid _ (by omega) low.symm

/-! ### Wheels -/

/-- A member of a zip, with the time that it is stamped with. -/
structure ZipMember where
  name : String
  mtime : ℕ
  bytes : List UInt8

structure Wheel where
  members : List ZipMember
  distinct : (members.map ZipMember.name).Nodup

namespace Wheel
variable (w : Wheel)

/-- The bytes of every member. -/
def payload (name : String) : Option (List UInt8) :=
  (w.members.find? (·.name = name)).map ZipMember.bytes

/-- `z.read(name)`, for a name of the zip -/
def read (name : String) : List UInt8 := (w.payload name).getD []

/-- `sorted(z.namelist())` -/
def names : List String := (w.members.map ZipMember.name).insertionSort (· ≤ ·)

variable (sha : List UInt8 → Digest)

/-- What `wheel_digest` gives to the hash. -/
def stream : List UInt8 :=
  w.names.flatMap fun name => encode name ++ [0] ++ (sha (w.read name)).1

/-- `wheel_digest` -/
def digest : String := hexdigest (sha (w.stream sha))

/-- Everything that is hashed for the digest. -/
def hashed : Set (List UInt8) := {b | b = w.stream sha ∨ ∃ m ∈ w.members, b = m.bytes}

/-- No name has a NUL. -/
def PlainNames : Prop := ∀ m ∈ w.members, Plain m.name

instance : DecidablePred PlainNames := fun w => inferInstanceAs (Decidable (∀ m ∈ w.members, Plain m.name))

end Wheel

/-! ### What a payload is -/

namespace Wheel
variable {w w' : Wheel} {name : String} {bytes : List UInt8} {sha : List UInt8 → Digest}

theorem mem_of_payload (found : w.payload name = some bytes) :
    ∃ m ∈ w.members, m.name = name ∧ m.bytes = bytes := by
  obtain ⟨m, here, rfl⟩ := Option.map_eq_some_iff.mp found
  exact ⟨m, List.mem_of_find?_eq_some here, by simpa using List.find?_some here, rfl⟩

theorem mem_names : name ∈ w.names ↔ (w.payload name).isSome := by
  rw [names, List.mem_insertionSort, payload, Option.isSome_map, List.find?_isSome, List.mem_map]
  simp

theorem payload_of_mem (member : name ∈ w.names) : w.payload name = some (w.read name) := by
  obtain ⟨bytes, found⟩ := Option.isSome_iff_exists.mp (mem_names.mp member)
  rw [read, found]
  rfl

theorem hashed_of_mem (member : name ∈ w.names) : w.read name ∈ w.hashed sha := by
  obtain ⟨m, inside, -, bytes⟩ := mem_of_payload (payload_of_mem member)
  exact .inr ⟨m, inside, bytes.symm⟩

/-- The names and what is read under them are the payload. -/
theorem payload_eq (names : w.names = w'.names) (reads : ∀ name ∈ w.names, w.read name = w'.read name) :
    w.payload = w'.payload := by
  funext name
  by_cases member : name ∈ w.names
  · rw [payload_of_mem member, payload_of_mem (names ▸ member), reads name member]
  · have none_ : ∀ v : Wheel, name ∉ v.names → v.payload name = none := fun v absent =>
      Option.not_isSome_iff_eq_none.mp fun some_ => absent (mem_names.mpr some_)
    rw [none_ w member, none_ w' (names ▸ member)]

theorem nodup_names : w.names.Nodup := (List.perm_insertionSort _ _).nodup_iff.mpr w.distinct

/-- The order of the members and their times do not matter. -/
theorem names_congr (same : w.payload = w'.payload) : w.names = w'.names := by
  have perm : w.names.Perm w'.names := (List.perm_ext_iff_of_nodup nodup_names nodup_names).mpr
    fun name => by rw [mem_names, mem_names, same]
  exact perm.eq_of_pairwise' (List.pairwise_insertionSort ..) (List.pairwise_insertionSort ..)

theorem digest_congr (same : w.payload = w'.payload) : w.digest sha = w'.digest sha := by
  have stream : w.stream sha = w'.stream sha := by
    rw [stream, stream, names_congr same]
    exact List.flatMap_congr fun name _ => by rw [read, read, same]
  rw [digest, digest, stream]

/-- A member's entry in the stream. -/
theorem framed_entry : Framed (fun entry : String × Digest => Plain entry.1)
    fun entry => encode entry.1 ++ [0] ++ entry.2.1 := by
  have name : Framed Plain fun name => encode name ++ [0] :=
    (Framed.terminated (0 : UInt8)).comp (fun _ plain => plain.encode) fun _ _ _ _ same =>
      encode_inj same
  have digest : Framed (fun _ : Digest => True) Subtype.val :=
    (Framed.width 32).comp (fun d _ => d.2) fun _ _ _ _ same => Subtype.ext same
  intro x y left right
  exact name.pair digest x y ⟨left, trivial⟩ ⟨right, trivial⟩

/-- Wheels with one stream have one payload, as far as the hash has no collision. -/
theorem payload_of_stream (plain : w.PlainNames) (plain' : w'.PlainNames)
    (free : Set.InjOn sha (w.hashed sha ∪ w'.hashed sha)) (same : w.stream sha = w'.stream sha) :
    w.payload = w'.payload := by
  have entries (v : Wheel) : v.stream sha =
      (v.names.map fun name => (name, sha (v.read name))).flatMap
        fun entry => encode entry.1 ++ [0] ++ entry.2.1 := by
    rw [stream, List.flatMap_map]
  have within {v : Wheel} (plain : v.PlainNames) :
      ∀ entry ∈ v.names.map fun name => (name, sha (v.read name)), Plain entry.1 := by
    intro entry member
    obtain ⟨name, inside, rfl⟩ := List.mem_map.mp member
    obtain ⟨m, here, rfl, -⟩ := mem_of_payload (payload_of_mem inside)
    exact plain m here
  rw [entries w, entries w'] at same
  have lists := framed_entry.flatMap_inj (by simp) (within plain) (within plain') same
  have names : w.names = w'.names := by
    have firsts := congrArg (List.map Prod.fst) lists
    rwa [List.map_map, List.map_map, show Prod.fst ∘ (fun name => (name, sha (w.read name))) = id from rfl,
      show Prod.fst ∘ (fun name => (name, sha (w'.read name))) = id from rfl, List.map_id,
      List.map_id] at firsts
  refine payload_eq names fun name member => ?_
  rw [names, List.map_inj_left] at lists
  have digests := (Prod.mk.inj (lists name (names ▸ member))).2
  exact free (.inl (hashed_of_mem member)) (.inr (hashed_of_mem (names ▸ member))) digests

theorem payload_of_digest (plain : w.PlainNames) (plain' : w'.PlainNames)
    (free : Set.InjOn sha (w.hashed sha ∪ w'.hashed sha)) (same : w.digest sha = w'.digest sha) :
    w.payload = w'.payload :=
  payload_of_stream plain plain' free
    (free (.inl (.inl rfl)) (.inr (.inl rfl)) (hexdigest_inj same))

end Wheel

/-- What is told apart by one value is told apart by another one that it determines. -/
theorem perm_map_of_determines {α β γ : Type*} {f : α → β} {g : α → γ} {xs ys : List α}
    (determines : ∀ x ∈ xs ++ ys, ∀ y ∈ xs ++ ys, f x = f y → g x = g y)
    (perm : (xs.map f).Perm (ys.map f)) : (xs.map g).Perm (ys.map g) := by
  classical
  let back : β → Option γ := fun b =>
    if known : ∃ x ∈ xs ++ ys, f x = b then some (g known.choose) else none
  have found : ∀ x ∈ xs ++ ys, back (f x) = some (g x) := by
    intro x inside
    have known : ∃ y ∈ xs ++ ys, f y = f x := ⟨x, inside, rfl⟩
    have same := determines _ known.choose_spec.1 x inside known.choose_spec.2
    simp only [back, dif_pos known, same]
  have both : ∀ zs : List α, (∀ z ∈ zs, z ∈ xs ++ ys) → (zs.map f).filterMap back = zs.map g := by
    intro zs inside
    rw [List.filterMap_map]
    rw [← List.filterMap_eq_map]
    exact List.filterMap_congr fun z member => found z (inside z member)
  rw [← both xs fun x member => List.mem_append_left _ member,
    ← both ys fun y member => List.mem_append_right _ member]
  exact perm.filterMap back

/-- What `build_id` is called with. -/
structure RuntimeInputs where
  wheel : Wheel
  lock : String
  interp : String
  extras : List Wheel

namespace RuntimeInputs
variable (i : RuntimeInputs) (sha : List UInt8 → Digest)

/-- The parts that `build_id` gives to the hash, each with a NUL behind it. -/
def parts : List String :=
  [i.wheel.digest sha, i.lock, i.interp] ++ (i.extras.map (·.digest sha)).insertionSort (· ≤ ·)

/-- What `build_id` gives to the hash. -/
def buildStream : List UInt8 := (i.parts sha).flatMap fun part => encode part ++ [0]

/-- Everything that is hashed for the digests of the wheels. -/
def hashed : Set (List UInt8) := {b | ∃ w ∈ i.wheel :: i.extras, b ∈ w.hashed sha}

/-- No NUL in the names of members, in the lock and in the interpreter. -/
structure NulFree : Prop where
  names : ∀ w ∈ i.wheel :: i.extras, w.PlainNames
  lock : Plain i.lock
  interp : Plain i.interp

variable {i sha}

theorem plain_parts (plain : i.NulFree) : ∀ part ∈ i.parts sha, Plain part := by
  intro part member
  have digests : ∀ w : Wheel, Plain (w.digest sha) := fun w => plain_hexdigest _
  rcases List.mem_append.mp member with first | extra
  · simp only [List.mem_cons, List.not_mem_nil, or_false] at first
    rcases first with rfl | rfl | rfl
    · exact digests _
    · exact plain.lock
    · exact plain.interp
  · obtain ⟨w, -, rfl⟩ := List.mem_map.mp ((List.mem_insertionSort _).mp extra)
    exact digests w

theorem framed_part : Framed Plain fun part => encode part ++ [0] :=
  (Framed.terminated (0 : UInt8)).comp (fun _ plain => plain.encode) fun _ _ _ _ same => encode_inj same

end RuntimeInputs

/-- For all inputs without a NUL in a name, in the lock or in the interpreter, and a hash without a
collision among what is hashed: the streams are the same exactly when the payloads of the wheels, the
locks, the interpreters and the payloads of the first-party wheels, in whatever order, are. -/
theorem buildStream_iff (sha : List UInt8 → Digest) (i j : RuntimeInputs) (plain : i.NulFree)
    (plain' : j.NulFree) (free : Set.InjOn sha (i.hashed sha ∪ j.hashed sha)) :
    i.buildStream sha = j.buildStream sha ↔
      i.wheel.payload = j.wheel.payload ∧ i.lock = j.lock ∧ i.interp = j.interp ∧
        (↑(i.extras.map Wheel.payload) : Multiset (String → Option (List UInt8))) =
          ↑(j.extras.map Wheel.payload) := by
  rw [Multiset.coe_eq_coe]
  have told : ∀ w ∈ i.wheel :: i.extras ++ j.wheel :: j.extras,
      ∀ w' ∈ i.wheel :: i.extras ++ j.wheel :: j.extras,
      w.digest sha = w'.digest sha → w.payload = w'.payload := by
    have known : ∀ w ∈ i.wheel :: i.extras ++ j.wheel :: j.extras,
        w.PlainNames ∧ w.hashed sha ⊆ i.hashed sha ∪ j.hashed sha := by
      intro w member
      rcases List.mem_append.mp member with first | second
      · exact ⟨plain.names w first, fun b here => .inl ⟨w, first, here⟩⟩
      · exact ⟨plain'.names w second, fun b here => .inr ⟨w, second, here⟩⟩
    intro w first w' second same
    exact Wheel.payload_of_digest (known w first).1 (known w' second).1
      (free.mono (Set.union_subset (known w first).2 (known w' second).2)) same
  have among : ∀ w ∈ i.extras ++ j.extras, w ∈ i.wheel :: i.extras ++ j.wheel :: j.extras := by
    intro w member
    rcases List.mem_append.mp member with first | second
    · exact List.mem_append_left _ (List.mem_cons_of_mem _ first)
    · exact List.mem_append_right _ (List.mem_cons_of_mem _ second)
  constructor
  · intro same
    have parts := RuntimeInputs.framed_part.flatMap_inj (by simp)
      (RuntimeInputs.plain_parts plain) (RuntimeInputs.plain_parts plain') same
    obtain ⟨wheel, rest⟩ := List.cons.inj parts
    obtain ⟨lock, rest⟩ := List.cons.inj rest
    obtain ⟨interp, rest⟩ := List.cons.inj rest
    have sorted : (i.extras.map (·.digest sha)).insertionSort (· ≤ ·) =
        (j.extras.map (·.digest sha)).insertionSort (· ≤ ·) := rest
    refine ⟨told _ (by simp) _ (by simp) wheel, lock, interp, ?_⟩
    have digests : (i.extras.map (·.digest sha)).Perm (j.extras.map (·.digest sha)) :=
      (List.perm_insertionSort _ _).symm.trans (sorted.symm ▸ List.perm_insertionSort _ _)
    exact perm_map_of_determines (fun w first w' second => told w (among w first) w' (among w' second))
      digests
  · rintro ⟨wheel, lock, interp, extras⟩
    have digests : (i.extras.map (·.digest sha)).Perm (j.extras.map (·.digest sha)) :=
      perm_map_of_determines (fun _ _ _ _ same => Wheel.digest_congr same) extras
    have sorted : (i.extras.map (·.digest sha)).insertionSort (· ≤ ·) =
        (j.extras.map (·.digest sha)).insertionSort (· ≤ ·) :=
      ((List.perm_insertionSort _ _).trans
        (digests.trans (List.perm_insertionSort _ _).symm)).eq_of_pairwise'
          (List.pairwise_insertionSort ..) (List.pairwise_insertionSort ..)
    rw [RuntimeInputs.buildStream, RuntimeInputs.buildStream, RuntimeInputs.parts, RuntimeInputs.parts,
      sorted, Wheel.digest_congr wheel, lock, interp]

/-- The hash of two short texts and of the streams of three wheels, which their first byte tells. -/
def shaOfFew (b : List UInt8) : Digest :=
  if b = [1] then
    ⟨[75, 245, 18, 47, 52, 69, 84, 197, 59, 222, 46, 187, 140, 210, 183, 227, 209, 96, 10, 214,
      49, 195, 133, 165, 215, 204, 226, 60, 119, 133, 69, 154], by decide⟩
  else if b = [2] then
    ⟨[219, 193, 180, 201, 0, 255, 228, 141, 87, 91, 93, 165, 198, 56, 4, 1, 37, 246, 93, 176, 254,
      62, 36, 73, 75, 118, 234, 152, 100, 87, 217, 134], by decide⟩
  else if b.head? = some 99 then
    ⟨[10, 70, 188, 229, 152, 30, 74, 1, 112, 90, 184, 95, 248, 142, 119, 185, 162, 5, 168, 228,
      17, 27, 16, 92, 250, 137, 43, 237, 99, 46, 25, 16], by decide⟩
  else if b.head? = some 100 then
    ⟨[166, 40, 18, 229, 152, 217, 41, 160, 65, 101, 50, 107, 234, 50, 214, 185, 209, 148, 90, 201,
      137, 249, 246, 3, 49, 62, 52, 170, 60, 96, 41, 225], by decide⟩
  else
    ⟨[94, 43, 149, 160, 207, 248, 212, 235, 70, 232, 129, 240, 95, 175, 250, 84, 208, 245, 20, 38,
      100, 2, 190, 128, 181, 224, 132, 193, 123, 134, 214, 105], by decide⟩

/-- A wheel with two members, and the same with the members the other way round. -/
def packed : Wheel := ⟨[⟨"a", 0, [1]⟩, ⟨"b", 0, [2]⟩], by decide⟩

def repacked : Wheel := ⟨[⟨"b", 5, [2]⟩, ⟨"a", 7, [1]⟩], by decide⟩

/-- Two first-party wheels. -/
def contracts : Wheel := ⟨[⟨"c", 0, [1]⟩], by decide⟩

def store : Wheel := ⟨[⟨"d", 0, [2]⟩], by decide⟩

/-- Everything that is hashed of them. -/
def hashedFew : List (List UInt8) :=
  [[1], [2], packed.stream shaOfFew, contracts.stream shaOfFew, store.stream shaOfFew]

theorem mem_hashedFew {w : Wheel} (wheel : w.stream shaOfFew ∈ hashedFew)
    (members : ∀ m ∈ w.members, m.bytes ∈ hashedFew) {b : List UInt8} (here : b ∈ w.hashed shaOfFew) :
    b ∈ hashedFew := by
  rcases here with rfl | ⟨m, member, rfl⟩
  · exact wheel
  · exact members m member

theorem buildStream_iff_repacked :
    RuntimeInputs.buildStream ⟨packed, "lock", "cpython", [contracts, store]⟩ shaOfFew =
        RuntimeInputs.buildStream ⟨repacked, "lock", "cpython", [store, contracts]⟩ shaOfFew ↔
      packed.payload = repacked.payload ∧ "lock" = "lock" ∧ "cpython" = "cpython" ∧
        (↑([contracts, store].map Wheel.payload) : Multiset (String → Option (List UInt8))) =
          ↑([store, contracts].map Wheel.payload) := by
  refine buildStream_iff shaOfFew ⟨packed, "lock", "cpython", [contracts, store]⟩
    ⟨repacked, "lock", "cpython", [store, contracts]⟩
    ⟨by decide +kernel, by decide, by decide⟩ ⟨by decide +kernel, by decide, by decide⟩ ?_
  have wheels : ∀ w ∈ [packed, contracts, store] ++ [repacked, store, contracts],
      w.stream shaOfFew ∈ hashedFew ∧ ∀ m ∈ w.members, m.bytes ∈ hashedFew := by decide +kernel
  have known : ∀ b ∈ RuntimeInputs.hashed ⟨packed, "lock", "cpython", [contracts, store]⟩ shaOfFew ∪
      RuntimeInputs.hashed ⟨repacked, "lock", "cpython", [store, contracts]⟩ shaOfFew,
      b ∈ hashedFew := by
    rintro b (⟨w, among, here⟩ | ⟨w, among, here⟩)
    · obtain ⟨wheel, members⟩ := wheels w (List.mem_append_left _ among)
      exact mem_hashedFew wheel members here
    · obtain ⟨wheel, members⟩ := wheels w (List.mem_append_right _ among)
      exact mem_hashedFew wheel members here
  have tell : ∀ b ∈ hashedFew, ∀ c ∈ hashedFew, shaOfFew b = shaOfFew c → b = c := by
    decide +kernel
  exact fun b here c there => tell b (known b here) c (known c there)

end Nelix.Runtime

import Mathlib.Data.Nat.Digits.Defs

/-!
# Byte memory with little-endian words

A `ByteMem` maps every 64-bit address to a byte.  `readBytes` and `writeBytes`
move strings of bytes, `read` and `write` move 64-bit words, least significant
byte first.  Addresses wrap at `2 ^ 64` and need not be aligned.

The word rules speak about the bytes a word covers: `InWord a b` says that byte
`b` is one of the eight of the word at `a`, and `Apart a b` that two words share
no byte.  Two different aligned words are apart (`apart_of_aligned`).
-/

/-- A memory of bytes with 64-bit addresses. -/
abbrev ByteMem : Type := BitVec 64 → BitVec 8

namespace ByteMem

/-! ## Bytes and words -/

/-- The word whose bytes, least significant first, are the given ones. -/
def wordOfBytes (bytes : List (BitVec 8)) : BitVec 64 :=
  BitVec.ofNat 64 (Nat.ofDigits 256 (bytes.map BitVec.toNat))

/-- The eight bytes of a word, least significant first. -/
def bytesOfWord (value : BitVec 64) : List (BitVec 8) :=
  (List.range 8).map fun i => BitVec.ofNat 8 (value.toNat / 256 ^ i)

@[simp] theorem length_bytesOfWord (value : BitVec 64) : (bytesOfWord value).length = 8 := rfl

@[simp] theorem wordOfBytes_bytesOfWord (value : BitVec 64) :
    wordOfBytes (bytesOfWord value) = value := by
  apply BitVec.eq_of_toNat_eq
  have bound := value.isLt
  simp only [wordOfBytes, bytesOfWord, List.range_succ, List.range_zero, List.nil_append,
    List.cons_append, List.map_cons, List.map_nil, BitVec.toNat_ofNat, Nat.ofDigits_cons,
    Nat.ofDigits_nil]
  omega

theorem bytesOfWord_wordOfBytes {bytes : List (BitVec 8)} (length : bytes.length = 8) :
    bytesOfWord (wordOfBytes bytes) = bytes := by
  match bytes, length with
  | [b0, b1, b2, b3, b4, b5, b6, b7], _ =>
    have h0 := b0.isLt
    have h1 := b1.isLt
    have h2 := b2.isLt
    have h3 := b3.isLt
    have h4 := b4.isLt
    have h5 := b5.isLt
    have h6 := b6.isLt
    have h7 := b7.isLt
    simp only [wordOfBytes, bytesOfWord, List.range_succ, List.range_zero, List.nil_append,
      List.cons_append, List.map_cons, List.map_nil, Nat.ofDigits_cons, Nat.ofDigits_nil,
      BitVec.toNat_ofNat, List.cons.injEq, and_true]
    refine ⟨?_, ?_, ?_, ?_, ?_, ?_, ?_, ?_⟩ <;> apply BitVec.eq_of_toNat_eq <;>
      rw [BitVec.toNat_ofNat] <;> omega

/-! ## Strings of bytes -/

/-- The `n` bytes from address `a` on. -/
def readBytes (m : ByteMem) (a : BitVec 64) (n : Nat) : List (BitVec 8) :=
  (List.range n).map fun i => m (a + BitVec.ofNat 64 i)

/-- Store a string of bytes from address `a` on. -/
def writeBytes (m : ByteMem) (a : BitVec 64) (bytes : List (BitVec 8)) : ByteMem :=
  fun b => (bytes[(b - a).toNat]?).getD (m b)

@[simp] theorem length_readBytes (m : ByteMem) (a : BitVec 64) (n : Nat) :
    (m.readBytes a n).length = n := by
  simp [readBytes]

theorem head_readBytes (m : ByteMem) (a : BitVec 64) {n : Nat} (nonempty : 0 < n) :
    (m.readBytes a n).head? = some (m a) := by
  obtain ⟨k, rfl⟩ := Nat.exists_eq_succ_of_ne_zero (Nat.ne_of_gt nonempty)
  rw [readBytes, List.range_succ_eq_map, List.map_cons, List.head?_cons]
  exact congrArg (fun b => some (m b)) (BitVec.add_zero a)

/-- A string is its two parts. -/
theorem readBytes_add (m : ByteMem) (a : BitVec 64) (n k : Nat) :
    m.readBytes a (n + k) = m.readBytes a n ++ m.readBytes (a + BitVec.ofNat 64 n) k := by
  have place : ∀ i, a + BitVec.ofNat 64 (n + i) =
      a + BitVec.ofNat 64 n + BitVec.ofNat 64 i := by
    intro i
    rw [BitVec.ofNat_add, BitVec.add_assoc]
  rw [readBytes, List.range_add, List.map_append, List.map_map]
  exact congrArg (m.readBytes a n ++ ·) (List.map_congr_left fun i _ => congrArg m (place i))

theorem readBytes_one (m : ByteMem) (a : BitVec 64) : m.readBytes a 1 = [m a] :=
  congrArg (fun b => [m b]) (BitVec.add_zero a)

theorem writeBytes_of_le (m : ByteMem) {a b : BitVec 64} {bytes : List (BitVec 8)}
    (outside : bytes.length ≤ (b - a).toNat) : m.writeBytes a bytes b = m b := by
  rw [writeBytes, List.getElem?_eq_none outside, Option.getD_none]

theorem offset_sub_self (a : BitVec 64) {i : Nat} (bound : i < 2 ^ 64) :
    (a + BitVec.ofNat 64 i - a).toNat = i := by
  rw [BitVec.add_comm, BitVec.add_sub_cancel, BitVec.toNat_ofNat, Nat.mod_eq_of_lt bound]

/-- A string reads back from where it was stored. -/
theorem readBytes_writeBytes (m : ByteMem) (a : BitVec 64) {bytes : List (BitVec 8)}
    (fits : bytes.length ≤ 2 ^ 64) :
    (m.writeBytes a bytes).readBytes a bytes.length = bytes := by
  apply List.ext_getElem
  · simp
  · intro i _ inside
    simp only [readBytes, List.getElem_map, List.getElem_range, writeBytes]
    rw [offset_sub_self a (by omega), List.getElem?_eq_getElem inside, Option.getD_some]

/-- Storing the string already there changes nothing. -/
theorem writeBytes_readBytes (m : ByteMem) (a : BitVec 64) (n : Nat) :
    m.writeBytes a (m.readBytes a n) = m := by
  funext b
  by_cases inside : (b - a).toNat < n
  · have same : a + BitVec.ofNat 64 (b - a).toNat = b := by
      rw [BitVec.ofNat_toNat, BitVec.setWidth_eq, BitVec.add_comm, BitVec.sub_add_cancel]
    rw [writeBytes, List.getElem?_eq_getElem (by simpa using inside), Option.getD_some]
    simp only [readBytes, List.getElem_map, List.getElem_range, same]
  · exact writeBytes_of_le m (by simpa using Nat.le_of_not_lt inside)

/-! ## Words -/

/-- The word at address `a`. -/
def read (m : ByteMem) (a : BitVec 64) : BitVec 64 := wordOfBytes (m.readBytes a 8)

/-- Store a word at address `a`. -/
def write (m : ByteMem) (a value : BitVec 64) : ByteMem := m.writeBytes a (bytesOfWord value)

/-- Byte `b` is one of the eight of the word at `a`. -/
def InWord (a b : BitVec 64) : Prop := (b - a).toNat < 8

instance (a b : BitVec 64) : Decidable (InWord a b) := inferInstanceAs (Decidable (_ < _))

/-- The words at `a` and at `b` share no byte. -/
def Apart (a b : BitVec 64) : Prop := ∀ c, InWord a c → ¬ InWord b c

/-- The address of a naturally aligned word. -/
def Aligned (a : BitVec 64) : Prop := a.toNat % 8 = 0

instance (a : BitVec 64) : Decidable (Aligned a) := inferInstanceAs (Decidable (_ = _))

/-- Two different aligned words share no byte. -/
theorem apart_of_aligned {a b : BitVec 64} (left : Aligned a) (right : Aligned b)
    (ne : a ≠ b) : Apart a b := by
  intro c inA inB
  apply ne
  apply BitVec.eq_of_toNat_eq
  unfold Aligned at left right
  simp only [InWord, BitVec.toNat_sub] at inA inB
  have := a.isLt
  have := b.isLt
  have := c.isLt
  omega

theorem Aligned.add {a b : BitVec 64} (left : Aligned a) (right : Aligned b) :
    Aligned (a + b) := by
  unfold Aligned at *
  rw [BitVec.toNat_add]
  omega

theorem Aligned.mul_eight (a : BitVec 64) : Aligned (a * 8#64) := by
  unfold Aligned
  rw [BitVec.toNat_mul, show (8#64).toNat = 8 from rfl]
  omega

theorem write_of_not_inWord (m : ByteMem) {a b : BitVec 64} (value : BitVec 64)
    (outside : ¬ InWord a b) : m.write a value b = m b :=
  writeBytes_of_le m (Nat.le_of_not_lt outside)

theorem inWord_offset (a : BitVec 64) {i : Nat} (bound : i < 8) :
    InWord a (a + BitVec.ofNat 64 i) := by
  rw [InWord, offset_sub_self a (by omega)]
  exact bound

/-- A word depends only on its own bytes. -/
theorem read_congr {m m' : ByteMem} {a : BitVec 64} (same : ∀ b, InWord a b → m' b = m b) :
    m'.read a = m.read a := by
  have bytes : m'.readBytes a 8 = m.readBytes a 8 := by
    apply List.map_congr_left
    intro i member
    exact same _ (inWord_offset a (List.mem_range.mp member))
  rw [read, read, bytes]

@[simp] theorem read_write_self (m : ByteMem) (a value : BitVec 64) :
    (m.write a value).read a = value := by
  have short : (bytesOfWord value).length ≤ 2 ^ 64 := by simp
  have bytes := readBytes_writeBytes m a short
  rw [length_bytesOfWord] at bytes
  rw [read, write, bytes, wordOfBytes_bytesOfWord]

theorem read_write_of_apart (m : ByteMem) {a b : BitVec 64} (value : BitVec 64)
    (apart : Apart a b) : (m.write a value).read b = m.read b :=
  read_congr fun _ inB => write_of_not_inWord m value fun inA => apart _ inA inB

@[simp] theorem write_read_self (m : ByteMem) (a : BitVec 64) : m.write a (m.read a) = m := by
  rw [write, read, bytesOfWord_wordOfBytes (length_readBytes m a 8), writeBytes_readBytes]

/-- Inside the word at `a`, a store there forgets the old contents. -/
theorem write_of_inWord (m m' : ByteMem) {a b : BitVec 64} (value : BitVec 64)
    (inside : InWord a b) : m.write a value b = m'.write a value b := by
  have bound : (b - a).toNat < (bytesOfWord value).length := by
    rw [length_bytesOfWord]
    exact inside
  simp only [write, writeBytes, List.getElem?_eq_getElem bound, Option.getD_some]

@[simp] theorem write_write_self (m : ByteMem) (a first second : BitVec 64) :
    (m.write a first).write a second = m.write a second := by
  funext b
  by_cases inside : InWord a b
  · exact write_of_inWord _ _ second inside
  · rw [write_of_not_inWord _ _ inside, write_of_not_inWord _ _ inside,
      write_of_not_inWord _ _ inside]

/-- Memories that hold the same word at `a` agree on its bytes. -/
theorem eq_of_read_eq {m m' : ByteMem} {a b : BitVec 64} (same : m'.read a = m.read a)
    (inside : InWord a b) : m' b = m b := by
  have restored : m'.write a (m.read a) = m' := by
    rw [← same]
    exact write_read_self m' a
  calc
    m' b = m'.write a (m.read a) b := by rw [restored]
    _ = m.write a (m.read a) b := write_of_inWord _ _ _ inside
    _ = m b := by rw [write_read_self]

/-! ## Sequences of word stores -/

/-- Perform word stores in order. -/
def writeAll (m : ByteMem) (stores : List (BitVec 64 × BitVec 64)) : ByteMem :=
  stores.foldl (fun m store => m.write store.1 store.2) m

/-- The value of the last store to address `a`. -/
def lastStore {β : Type} (stores : List (BitVec 64 × β)) (a : BitVec 64) : Option β :=
  match stores with
  | [] => none
  | store :: rest => (lastStore rest a).or (if store.1 = a then some store.2 else none)

@[simp] theorem writeAll_nil (m : ByteMem) : m.writeAll [] = m := rfl

@[simp] theorem writeAll_cons (m : ByteMem) (store : BitVec 64 × BitVec 64)
    (rest : List (BitVec 64 × BitVec 64)) :
    m.writeAll (store :: rest) = (m.write store.1 store.2).writeAll rest := rfl

theorem writeAll_append (m : ByteMem) (first second : List (BitVec 64 × BitVec 64)) :
    m.writeAll (first ++ second) = (m.writeAll first).writeAll second := by
  rw [writeAll, List.foldl_append]
  rfl

/-- Bytes outside every stored word are unchanged. -/
theorem writeAll_of_not_inWord {stores : List (BitVec 64 × BitVec 64)} (m : ByteMem)
    {b : BitVec 64} (outside : ∀ store ∈ stores, ¬ InWord store.1 b) :
    m.writeAll stores b = m b := by
  induction stores generalizing m with
  | nil => rfl
  | cons store rest ih =>
      rw [List.forall_mem_cons] at outside
      rw [writeAll_cons, ih _ outside.2, write_of_not_inWord _ _ outside.1]

/-- With aligned stores, an aligned word holds what was last stored to it. -/
theorem read_writeAll {stores : List (BitVec 64 × BitVec 64)} (m : ByteMem) {a : BitVec 64}
    (alignedStores : ∀ store ∈ stores, Aligned store.1) (aligned : Aligned a) :
    (m.writeAll stores).read a = (lastStore stores a).getD (m.read a) := by
  induction stores generalizing m with
  | nil => rw [writeAll_nil, lastStore, Option.getD_none]
  | cons store rest ih =>
      rw [List.forall_mem_cons] at alignedStores
      rw [writeAll_cons, ih _ alignedStores.2, lastStore]
      cases lastStore rest a with
      | some value => simp only [Option.some_or, Option.getD_some]
      | none =>
          by_cases same : store.1 = a
          · subst same
            simp
          · simp [same, read_write_of_apart _ _
              (apart_of_aligned alignedStores.1 aligned same)]

/-- In a memory of zeros an aligned word holds what was last stored to it, or 0. -/
theorem read_writeAll_zeros {stores : List (BitVec 64 × BitVec 64)} {a : BitVec 64}
    (alignedStores : ∀ store ∈ stores, Aligned store.1) (aligned : Aligned a) :
    (ByteMem.writeAll (fun _ => 0) stores).read a = (lastStore stores a).getD 0 := by
  have bytes : readBytes (fun _ => 0) a 8 = List.replicate 8 0 := List.map_const' ..
  have empty : ByteMem.read (fun _ => 0) a = 0 := by
    rw [ByteMem.read, bytes]
    decide
  rw [read_writeAll _ alignedStores aligned, empty]

theorem lastStore_eq_none_iff {β : Type} {stores : List (BitVec 64 × β)} {a : BitVec 64} :
    lastStore stores a = none ↔ ∀ store ∈ stores, store.1 ≠ a := by
  induction stores with
  | nil => simp [lastStore]
  | cons store rest ih => simp [lastStore, ih, and_comm]

/-- What was last stored to an address is one of the stores. -/
theorem lastStore_mem {β : Type} {stores : List (BitVec 64 × β)} {a : BitVec 64} {value : β}
    (last : lastStore stores a = some value) : (a, value) ∈ stores := by
  induction stores with
  | nil => cases last
  | cons store rest ih =>
      rw [lastStore, Option.or_eq_some_iff] at last
      rcases last with later | ⟨_, here⟩
      · exact List.mem_cons_of_mem _ (ih later)
      · obtain ⟨rfl, stored⟩ := Option.ite_none_right_eq_some.mp here
        rw [← Option.some.inj stored]
        exact List.mem_cons_self

theorem lastStore_append {β : Type} (first second : List (BitVec 64 × β)) (a : BitVec 64) :
    lastStore (first ++ second) a = (lastStore second a).or (lastStore first a) := by
  induction first with
  | nil => simp [lastStore]
  | cons store rest ih => rw [List.cons_append, lastStore, ih, lastStore, Option.or_assoc]

/-! ## Stores of single bytes -/

/-- Store single bytes one after the other. -/
def storeBytes (m : ByteMem) (stores : List (BitVec 64 × BitVec 8)) : ByteMem :=
  fun b => (lastStore stores b).getD (m b)

/-- Stores of bytes change nothing exactly when the last byte stored to each address is the
one already there. -/
theorem storeBytes_eq_self_iff {stores : List (BitVec 64 × BitVec 8)} (m : ByteMem) :
    m.storeBytes stores = m ↔ ∀ store ∈ stores, lastStore stores store.1 = some (m store.1) := by
  constructor
  · intro same store member
    have here : (lastStore stores store.1).getD (m store.1) = m store.1 := congrFun same store.1
    cases last : lastStore stores store.1 with
    | none => exact absurd rfl (lastStore_eq_none_iff.mp last store member)
    | some value =>
        rw [last, Option.getD_some] at here
        rw [here]
  · intro stored
    funext b
    unfold storeBytes
    cases last : lastStore stores b with
    | none => rfl
    | some value =>
        have there := stored (b, value) (lastStore_mem last)
        rw [last] at there
        exact Option.some.inj there

theorem storeBytes_append (m : ByteMem) (first second : List (BitVec 64 × BitVec 8)) :
    m.storeBytes (first ++ second) = (m.storeBytes first).storeBytes second := by
  funext b
  unfold storeBytes
  rw [lastStore_append]
  cases lastStore second b <;> rfl

/-- The stores of a string of bytes from address `a` on, each at the place of its address. -/
def byteStores (place : BitVec 64 → BitVec 64) (a : BitVec 64) :
    List (BitVec 8) → List (BitVec 64 × BitVec 8)
  | [] => []
  | byte :: rest => (place a, byte) :: byteStores place (a + 1) rest

theorem lastStore_byteStores {bytes : List (BitVec 8)} (fits : bytes.length ≤ 2 ^ 64)
    (a b : BitVec 64) : lastStore (byteStores id a bytes) b = bytes[(b - a).toNat]? := by
  induction bytes generalizing a with
  | nil => rfl
  | cons byte rest ih =>
      rw [List.length_cons] at fits
      rw [byteStores, lastStore, ih (by omega)]
      by_cases here : a = b
      · have past : rest.length ≤ (b - (a + 1)).toNat := by bv_omega
        rw [List.getElem?_eq_none past, here, BitVec.sub_self]
        simp
      · have next : (b - a).toNat = (b - (a + 1)).toNat + 1 := by bv_omega
        rw [next, List.getElem?_cons_succ]
        simp [here]

/-- Storing a string is storing its bytes. -/
theorem writeBytes_eq_storeBytes (m : ByteMem) (a : BitVec 64) {bytes : List (BitVec 8)}
    (fits : bytes.length ≤ 2 ^ 64) :
    m.writeBytes a bytes = m.storeBytes (byteStores id a bytes) := by
  funext b
  rw [storeBytes, lastStore_byteStores fits, writeBytes]

/-- The bytes that word stores store. -/
def wordStores (stores : List (BitVec 64 × BitVec 64)) : List (BitVec 64 × BitVec 8) :=
  stores.flatMap fun store => byteStores id store.1 (bytesOfWord store.2)

theorem writeAll_eq_storeBytes (m : ByteMem) (stores : List (BitVec 64 × BitVec 64)) :
    m.writeAll stores = m.storeBytes (wordStores stores) := by
  induction stores generalizing m with
  | nil => rfl
  | cons store rest ih =>
      have short : (bytesOfWord store.2).length ≤ 2 ^ 64 := by simp
      rw [writeAll_cons, ih, write, writeBytes_eq_storeBytes m store.1 short, ← storeBytes_append]
      rfl

/-! ## Sequences of word edits -/

/-- Replace words by functions of themselves, in order. -/
def editAll (m : ByteMem) (edits : List (BitVec 64 × (BitVec 64 → BitVec 64))) : ByteMem :=
  edits.foldl (fun m edit => m.write edit.1 (edit.2 (m.read edit.1))) m

/-- Those of some edits that concern one address. -/
def editsAt (edits : List (BitVec 64 × (BitVec 64 → BitVec 64))) (a : BitVec 64) :
    List (BitVec 64 → BitVec 64) :=
  (edits.filter fun edit => edit.1 = a).map Prod.snd

section Edits

variable {edits edits' : List (BitVec 64 × (BitVec 64 → BitVec 64))}

@[simp] theorem editAll_cons (m : ByteMem) (edit : BitVec 64 × (BitVec 64 → BitVec 64))
    (rest : List (BitVec 64 × (BitVec 64 → BitVec 64))) :
    m.editAll (edit :: rest) = (m.write edit.1 (edit.2 (m.read edit.1))).editAll rest := rfl

/-- Bytes outside every edited word are unchanged. -/
theorem editAll_of_not_inWord (m : ByteMem) {b : BitVec 64}
    (outside : ∀ edit ∈ edits, ¬ InWord edit.1 b) : m.editAll edits b = m b := by
  induction edits generalizing m with
  | nil => rfl
  | cons edit rest ih =>
      rw [List.forall_mem_cons] at outside
      rw [editAll_cons, ih _ outside.2, write_of_not_inWord _ _ outside.1]

/-- With aligned edits, an aligned word goes through the edits of its own address,
in order. -/
theorem read_editAll (m : ByteMem) {a : BitVec 64}
    (alignedEdits : ∀ edit ∈ edits, Aligned edit.1) (aligned : Aligned a) :
    (m.editAll edits).read a = (editsAt edits a).foldl (fun value f => f value) (m.read a) := by
  induction edits generalizing m with
  | nil => rfl
  | cons edit rest ih =>
      rw [List.forall_mem_cons] at alignedEdits
      rw [editAll_cons, ih _ alignedEdits.2]
      by_cases same : edit.1 = a
      · subst same
        simp [editsAt]
      · rw [read_write_of_apart _ _ (apart_of_aligned alignedEdits.1 aligned same)]
        simp [editsAt, same]

/-- An address occurs among the edits exactly when edits concern it. -/
theorem editsAt_ne_nil_iff {a : BitVec 64} : editsAt edits a ≠ [] ↔ ∃ edit ∈ edits, edit.1 = a := by
  simp [editsAt]

/-- Only the order of the edits of each single address matters. -/
theorem editAll_congr (m : ByteMem) (alignedEdits : ∀ edit ∈ edits, Aligned edit.1)
    (same : ∀ a, editsAt edits' a = editsAt edits a) : m.editAll edits' = m.editAll edits := by
  have occurs : ∀ edit ∈ edits', ∃ edit' ∈ edits, edit'.1 = edit.1 := by
    intro edit member
    rw [← editsAt_ne_nil_iff, ← same]
    exact editsAt_ne_nil_iff.mpr ⟨edit, member, rfl⟩
  have alignedEdits' : ∀ edit ∈ edits', Aligned edit.1 := by
    intro edit member
    obtain ⟨edit', member', address⟩ := occurs edit member
    exact address ▸ alignedEdits edit' member'
  funext b
  by_cases inside : ∃ edit ∈ edits, InWord edit.1 b
  · obtain ⟨edit, member, inWord⟩ := inside
    refine eq_of_read_eq ?_ inWord
    rw [read_editAll m alignedEdits' (alignedEdits edit member),
      read_editAll m alignedEdits (alignedEdits edit member), same]
  · have outside : ∀ edit ∈ edits, ¬ InWord edit.1 b :=
      fun edit member inWord => inside ⟨edit, member, inWord⟩
    rw [editAll_of_not_inWord m outside]
    refine editAll_of_not_inWord m fun edit member inWord => ?_
    obtain ⟨edit', member', address⟩ := occurs edit member
    exact outside edit' member' (address ▸ inWord)

/-- Neighbouring edits of different addresses may be swapped. -/
theorem editsAt_swap {first second : BitVec 64 × (BitVec 64 → BitVec 64)}
    (ne : first.1 ≠ second.1) (before after : List (BitVec 64 × (BitVec 64 → BitVec 64)))
    (a : BitVec 64) :
    editsAt (before ++ second :: first :: after) a =
      editsAt (before ++ first :: second :: after) a := by
  by_cases left : first.1 = a
  · have right : second.1 ≠ a := fun right => ne (left.trans right.symm)
    simp [editsAt, left, right]
  · simp [editsAt, List.filter_cons, left]

end Edits

end ByteMem

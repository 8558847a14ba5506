import Mathlib

/-!
# SnowflakeConnector.BlockCipher

Block ciphers in a chaining mode, over streams of bytes that arrive in chunks.

A mode turns one block after the other, each with what the blocks before it left (`Mode`); a
stream collects bytes, passes on the blocks that are complete and keeps the others (`update`).
The last block is padded with its own number of missing bytes.

* `updates_eq` -- how the bytes are cut into chunks makes no difference.
* `decryptStream_encryptStream` -- what was encrypted is decrypted, in chunks of any length.
-/

namespace BlockCipher

/-- `size` bytes. -/
abbrev Block (size : Nat) := List.Vector UInt8 size

variable {size : Nat} {χ : Type*}

namespace Block

/-- The block at the head of some bytes. -/
def ofList (size : Nat) (bytes : List UInt8) : Block size :=
  ⟨bytes.takeD size 0, List.takeD_length _ _ _⟩

def xor (a b : Block size) : Block size := List.Vector.map₂ (· ^^^ ·) a b

theorem xor_xor_cancel (a b : Block size) : xor a (xor a b) = b := by
  ext i
  simp [xor, List.Vector.get_map₂]

theorem toList_ofList {bytes : List UInt8} (h : size ≤ bytes.length) :
    (ofList size bytes).toList = bytes.take size := List.takeD_eq_take 0 h

theorem ofList_toList_append (b : Block size) (rest : List UInt8) :
    ofList size (b.toList ++ rest) = b := by
  refine List.Vector.toList_injective ?_
  rw [toList_ofList (by simp), List.take_left' b.toList_length]

@[simp] theorem ofList_toList (b : Block size) : ofList size b.toList = b := by
  simpa using ofList_toList_append b []

end Block

/-! ## modes -/

/-- What a mode does with a block, given what the blocks before it left; `decrypt` leaves what
`encrypt` does. -/
structure Mode (χ : Type*) (size : Nat) where
  encrypt : χ → Block size → Block size × χ
  decrypt : χ → Block size → Block size × χ
  decrypt_encrypt : ∀ c b, decrypt c (encrypt c b).1 = (b, (encrypt c b).2)

/-- Every block for itself. -/
def ecb (cipher : Equiv.Perm (Block size)) : Mode Unit size where
  encrypt _ b := (cipher b, ())
  decrypt _ b := (cipher.symm b, ())
  decrypt_encrypt := by simp

/-- Every block is combined with the encrypted block before it. -/
def cbc (cipher : Equiv.Perm (Block size)) : Mode (Block size) size where
  encrypt c b := (cipher (Block.xor c b), cipher (Block.xor c b))
  decrypt c b := (Block.xor c (cipher.symm b), b)
  decrypt_encrypt := by simp [Block.xor_xor_cancel]

/-- Turn one block after the other. -/
def run (step : χ → Block size → Block size × χ) : χ → List (Block size) → List (Block size) × χ
  | c, [] => ([], c)
  | c, b :: bs =>
      let turned := step c b
      let rest := run step turned.2 bs
      (turned.1 :: rest.1, rest.2)

variable {step : χ → Block size → Block size × χ}

theorem run_append (c : χ) (bs bs' : List (Block size)) :
    run step c (bs ++ bs') =
      ((run step c bs).1 ++ (run step (run step c bs).2 bs').1,
        (run step (run step c bs).2 bs').2) := by
  induction bs generalizing c with
  | nil => rfl
  | cons b bs ih => simp [run, ih]

@[simp] theorem length_run (c : χ) (bs : List (Block size)) :
    (run step c bs).1.length = bs.length := by
  induction bs generalizing c with
  | nil => rfl
  | cons b bs ih => simp [run, ih]

/-- A decryption that starts where the encryption did gives the blocks back and ends where it
ends. -/
theorem Mode.run_decrypt_encrypt (mode : Mode χ size) (c : χ) (bs : List (Block size)) :
    run mode.decrypt c (run mode.encrypt c bs).1 = (bs, (run mode.encrypt c bs).2) := by
  induction bs generalizing c with
  | nil => rfl
  | cons b bs ih => simp [run, mode.decrypt_encrypt, ih]

/-! ## blocks of bytes -/

/-- The first `n` blocks of some bytes. -/
def chop (size : Nat) : Nat → List UInt8 → List (Block size)
  | 0, _ => []
  | n + 1, bytes => Block.ofList size bytes :: chop size n (bytes.drop size)

def bytesOf (bs : List (Block size)) : List UInt8 := bs.flatMap List.Vector.toList

@[simp] theorem bytesOf_nil : bytesOf ([] : List (Block size)) = [] := rfl

@[simp] theorem bytesOf_cons (b : Block size) (bs : List (Block size)) :
    bytesOf (b :: bs) = b.toList ++ bytesOf bs := by simp [bytesOf]

@[simp] theorem bytesOf_append (bs bs' : List (Block size)) :
    bytesOf (bs ++ bs') = bytesOf bs ++ bytesOf bs' := by simp [bytesOf]

theorem length_bytesOf (bs : List (Block size)) : (bytesOf bs).length = bs.length * size := by
  induction bs with
  | nil => simp
  | cons b bs ih => simp [ih, Nat.add_mul, Nat.add_comm]

@[simp] theorem length_chop (n : Nat) (bytes : List UInt8) : (chop size n bytes).length = n := by
  induction n generalizing bytes with
  | zero => rfl
  | succ n ih => simp [chop, ih]

theorem bytesOf_chop {n : Nat} {bytes : List UInt8} (h : n * size ≤ bytes.length) :
    bytesOf (chop size n bytes) = bytes.take (n * size) := by
  induction n generalizing bytes with
  | zero => simp [chop]
  | succ n ih =>
      rw [Nat.add_mul, Nat.one_mul] at h
      have hrest : n * size ≤ (bytes.drop size).length := by
        rw [List.length_drop]
        omega
      rw [chop, bytesOf_cons, Block.toList_ofList (by omega), ih hrest,
        show (n + 1) * size = size + n * size by rw [Nat.add_mul, Nat.one_mul, Nat.add_comm],
        List.take_add]

theorem chop_bytesOf_append (bs : List (Block size)) (rest : List UInt8) :
    chop size bs.length (bytesOf bs ++ rest) = bs := by
  induction bs with
  | nil => rfl
  | cons b bs ih =>
      rw [List.length_cons, chop, bytesOf_cons, List.append_assoc, Block.ofList_toList_append,
        List.drop_left' b.toList_length, ih]

theorem chop_add (m n : Nat) (bytes : List UInt8) :
    chop size (m + n) bytes = chop size m bytes ++ chop size n (bytes.drop (m * size)) := by
  induction m generalizing bytes with
  | zero => simp [chop]
  | succ m ih =>
      rw [Nat.add_right_comm, chop, ih, chop, List.drop_drop,
        show size + m * size = (m + 1) * size by rw [Nat.add_mul, Nat.one_mul, Nat.add_comm]]
      rfl

/-- Bytes behind the blocks are not looked at. -/
theorem chop_append {n : Nat} {bytes : List UInt8} (h : n * size ≤ bytes.length)
    (rest : List UInt8) : chop size n (bytes ++ rest) = chop size n bytes := by
  induction n generalizing bytes with
  | zero => rfl
  | succ n ih =>
      rw [Nat.add_mul, Nat.one_mul] at h
      have hrest : n * size ≤ (bytes.drop size).length := by
        rw [List.length_drop]
        omega
      have hhead : Block.ofList size (bytes ++ rest) = Block.ofList size bytes := by
        refine List.Vector.toList_injective ?_
        rw [Block.toList_ofList (by simp; omega), Block.toList_ofList (by omega),
          List.take_append_of_le_length (by omega)]
      rw [chop, chop, hhead, List.drop_append_of_le_length (by omega), ih hrest]

/-! ## streams -/

/-- A stream between two chunks: what the blocks so far left, and the bytes not passed on yet. -/
structure Stream (χ : Type*) where
  chain : χ
  buffer : List UInt8

/-- Take a chunk: every block that at least `held` bytes follow is passed on. -/
def update (step : χ → Block size → Block size × χ) (held : Nat) (s : Stream χ)
    (chunk : List UInt8) : List UInt8 × Stream χ :=
  let bytes := s.buffer ++ chunk
  let n := (bytes.length - held) / size
  let turned := run step s.chain (chop size n bytes)
  (bytesOf turned.1, ⟨turned.2, bytes.drop (n * size)⟩)

/-- Take one chunk after the other. -/
def updates (step : χ → Block size → Block size × χ) (held : Nat) :
    Stream χ → List (List UInt8) → List UInt8 × Stream χ
  | s, [] => ([], s)
  | s, chunk :: chunks =>
      let passed := update step held s chunk
      let rest := updates step held passed.2 chunks
      (passed.1 ++ rest.1, rest.2)

/-- A stream that has passed on every block that it can. -/
def Stream.Settled (size held : Nat) (s : Stream χ) : Prop := (s.buffer.length - held) / size = 0

theorem settled_start (held : Nat) (c : χ) : Stream.Settled size held ⟨c, []⟩ := by
  simp [Stream.Settled]

/-- The blocks of some bytes and of more bytes, counted in one go and in two. -/
theorem passed_add (length held : Nat) (hsize : 0 < size) (more : Nat) :
    (length + more - held) / size =
      (length - held) / size + (length - (length - held) / size * size + more - held) / size := by
  rcases Nat.lt_or_ge length held with hlt | hge
  · rw [Nat.sub_eq_zero_of_le hlt.le]
    simp
  · have hle : (length - held) / size * size ≤ length - held := Nat.div_mul_le_self _ _
    have hsum : length + more - held = (length - (length - held) / size * size + more - held) +
        (length - held) / size * size := by omega
    rw [hsum, Nat.add_mul_div_right _ _ hsize, Nat.add_comm]

theorem settled_update (hsize : 0 < size) (held : Nat) (s : Stream χ) (chunk : List UInt8) :
    (update step held s chunk).2.Settled size held := by
  have h := passed_add (s.buffer ++ chunk).length held hsize 0
  simp only [update, Stream.Settled, List.length_drop]
  rw [Nat.add_zero, Nat.add_zero] at h
  omega

theorem update_append (hsize : 0 < size) (held : Nat) (s : Stream χ) (d d' : List UInt8) :
    update step held s (d ++ d') =
      ((update step held s d).1 ++ (update step held (update step held s d).2 d').1,
        (update step held (update step held s d).2 d').2) := by
  simp only [update, ← List.append_assoc]
  generalize s.buffer ++ d = bytes
  have hle : (bytes.length - held) / size * size ≤ bytes.length :=
    (Nat.div_mul_le_self _ _).trans (Nat.sub_le _ _)
  have hn : ((bytes ++ d').length - held) / size = (bytes.length - held) / size +
      ((bytes.drop ((bytes.length - held) / size * size) ++ d').length - held) / size := by
    rw [List.length_append, passed_add _ _ hsize, List.length_append, List.length_drop]
  rw [hn, chop_add, run_append, chop_append hle, List.drop_append_of_le_length hle, bytesOf_append,
    Nat.add_mul, ← List.drop_drop, List.drop_append_of_le_length hle]

/-- How the bytes are cut into chunks makes no difference. -/
theorem updates_eq (hsize : 0 < size) {held : Nat} {s : Stream χ} (hs : s.Settled size held)
    (chunks : List (List UInt8)) :
    updates step held s chunks = update step held s chunks.flatten := by
  induction chunks generalizing s with
  | nil =>
      simp only [Stream.Settled] at hs
      simp [updates, update, hs, chop, run]
  | cons chunk chunks ih =>
      rw [List.flatten_cons, update_append hsize, updates,
        ih (settled_update hsize held s chunk)]

/-! ## padding -/

/-- What makes `length` bytes whole blocks: as many bytes as are missing, each that number. -/
def padding (size length : Nat) : List UInt8 :=
  List.replicate (size - length % size) (UInt8.ofNat (size - length % size))

/-- How the end of an encrypted stream is refused. -/
inductive FinalError
  | wrongFinalBlockLength
  | badDecrypt
  deriving DecidableEq, Repr

/-- The bytes of a last block without its padding. -/
def unpad (bytes : List UInt8) : Except FinalError (List UInt8) :=
  let n := (bytes.getLastD 0).toNat
  if n = 0 ∨ bytes.length < n then .error .badDecrypt
  else if (bytes.drop (bytes.length - n)).all (· == UInt8.ofNat n) then
    .ok (bytes.take (bytes.length - n))
  else .error .badDecrypt

theorem length_append_padding (hsize : 0 < size) (bytes : List UInt8) :
    (bytes ++ padding size bytes.length).length = (bytes.length / size + 1) * size := by
  have hmod := Nat.mod_lt bytes.length hsize
  have hdiv := Nat.div_add_mod' bytes.length size
  rw [List.length_append, padding, List.length_replicate, Nat.add_mul, Nat.one_mul]
  omega

theorem unpad_append_padding (hsize : 0 < size) (hbyte : size < 256) {bytes : List UInt8}
    (hbytes : bytes.length < size) : unpad (bytes ++ padding size bytes.length) = .ok bytes := by
  have hmod : bytes.length % size = bytes.length := Nat.mod_eq_of_lt hbytes
  have hlast : ((bytes ++ padding size bytes.length).getLastD 0).toNat = size - bytes.length := by
    rw [padding, hmod, List.getLastD_eq_getLast?, List.getLast?_append_of_ne_nil,
      List.getLast?_replicate, if_neg (by omega)]
    · exact UInt8.toNat_ofNat_of_lt (by simp [UInt8.size]; omega)
    · simp
      omega
  have hlength : (bytes ++ padding size bytes.length).length = size := by
    rw [List.length_append, padding, List.length_replicate, hmod]
    omega
  have hkept : size - (size - bytes.length) = bytes.length := by omega
  simp only [unpad, hlast, hlength, hkept, List.drop_left', List.take_left']
  rw [if_neg (by omega), if_pos (by simp [padding, hmod])]

/-! ## whole streams -/

/-- The last block of an encryption: what is left, padded. -/
def finalEncrypt (mode : Mode χ size) (s : Stream χ) : List UInt8 :=
  (mode.encrypt s.chain (Block.ofList size (s.buffer ++ padding size s.buffer.length))).1.toList

/-- The last block of a decryption, which has been held back, without its padding. -/
def finalDecrypt (mode : Mode χ size) (s : Stream χ) : Except FinalError (List UInt8) :=
  if s.buffer.length = size then unpad (mode.decrypt s.chain (Block.ofList size s.buffer)).1.toList
  else .error .wrongFinalBlockLength

def encryptStream (mode : Mode χ size) (c : χ) (chunks : List (List UInt8)) : List UInt8 :=
  let passed := updates mode.encrypt 0 ⟨c, []⟩ chunks
  passed.1 ++ finalEncrypt mode passed.2

def decryptStream (mode : Mode χ size) (c : χ) (chunks : List (List UInt8)) :
    Except FinalError (List UInt8) := do
  let passed := updates mode.decrypt 1 ⟨c, []⟩ chunks
  let final ← finalDecrypt mode passed.2
  .ok (passed.1 ++ final)

/-- The blocks that a message is encrypted in: the whole ones and the padded one. -/
def paddedBlocks (size : Nat) (message : List UInt8) : List (Block size) :=
  chop size (message.length / size) message ++
    [Block.ofList size (message.drop (message.length / size * size) ++
      padding size (message.drop (message.length / size * size)).length)]

theorem length_rest (hsize : 0 < size) (message : List UInt8) :
    (message.drop (message.length / size * size)).length < size := by
  have hmod := Nat.mod_lt message.length hsize
  have hdiv := Nat.div_add_mod' message.length size
  rw [List.length_drop]
  omega

theorem encryptStream_eq (hsize : 0 < size) (mode : Mode χ size) (c : χ)
    (chunks : List (List UInt8)) :
    encryptStream mode c chunks =
      bytesOf (run mode.encrypt c (paddedBlocks size chunks.flatten)).1 := by
  rw [encryptStream, updates_eq hsize (settled_start 0 c), paddedBlocks, run_append]
  simp [update, finalEncrypt, run]

/-- An encryption depends on the bytes alone. -/
theorem encryptStream_congr (hsize : 0 < size) {mode : Mode χ size} {c : χ}
    {chunks chunks' : List (List UInt8)} (h : chunks.flatten = chunks'.flatten) :
    encryptStream mode c chunks = encryptStream mode c chunks' := by
  rw [encryptStream_eq hsize, encryptStream_eq hsize, h]

/-- An encryption is longer than the message: by up to one block, and never by nothing. -/
theorem length_encryptStream (hsize : 0 < size) (mode : Mode χ size) (c : χ)
    (chunks : List (List UInt8)) :
    (encryptStream mode c chunks).length = (chunks.flatten.length / size + 1) * size := by
  rw [encryptStream_eq hsize, length_bytesOf, length_run, paddedBlocks, List.length_append,
    length_chop, List.length_singleton]

/-- The last block of an encryption ends a decryption that stands where the encryption did. -/
theorem finalDecrypt_encrypt (hsize : 0 < size) (hbyte : size < 256) (mode : Mode χ size) (c : χ)
    {rest : List UInt8} (hrest : rest.length < size) :
    finalDecrypt mode
      ⟨c, (mode.encrypt c (Block.ofList size (rest ++ padding size rest.length))).1.toList⟩ =
        .ok rest := by
  have hlength : (rest ++ padding size rest.length).length = size := by
    rw [length_append_padding hsize, Nat.div_eq_of_lt hrest]
    omega
  have hpadded : (Block.ofList size (rest ++ padding size rest.length)).toList =
      rest ++ padding size rest.length := by
    rw [Block.toList_ofList hlength.ge, List.take_of_length_le hlength.le]
  rw [finalDecrypt, if_pos (List.Vector.toList_length _), Block.ofList_toList,
    mode.decrypt_encrypt, hpadded, unpad_append_padding hsize hbyte hrest]

/-- What was encrypted is decrypted, whatever chunks the two streams come in. -/
theorem decryptStream_encryptStream (hsize : 0 < size) (hbyte : size < 256) (mode : Mode χ size)
    (c : χ) {chunks received : List (List UInt8)}
    (h : received.flatten = encryptStream mode c chunks) :
    decryptStream mode c received = .ok chunks.flatten := by
  have hlength := length_encryptStream hsize mode c chunks
  have hrest := length_rest hsize chunks.flatten
  -- all blocks but the last are passed on, and the last is what is held back
  have hpassed : ((chunks.flatten.length / size + 1) * size - 1) / size =
      chunks.flatten.length / size := by
    rw [Nat.add_mul, Nat.one_mul, show chunks.flatten.length / size * size + size - 1 =
      (size - 1) + chunks.flatten.length / size * size by omega, Nat.add_mul_div_right _ _ hsize,
      Nat.div_eq_of_lt (by omega), Nat.zero_add]
  rw [decryptStream, updates_eq hsize (settled_start 1 c), h, update]
  simp only [List.nil_append, hlength, hpassed]
  rw [encryptStream_eq hsize, paddedBlocks, run_append, bytesOf_append]
  generalize hlast : chunks.flatten.drop (chunks.flatten.length / size * size) = rest at *
  generalize hwhole : chop size (chunks.flatten.length / size) chunks.flatten = whole
  have hcount : (run mode.encrypt c whole).1.length = chunks.flatten.length / size := by
    rw [length_run, ← hwhole, length_chop]
  rw [← hcount, chop_bytesOf_append, mode.run_decrypt_encrypt,
    List.drop_left' (length_bytesOf _)]
  simp only [run, bytesOf_cons, bytesOf_nil, List.append_nil]
  rw [finalDecrypt_encrypt hsize hbyte mode _ hrest, ← hwhole, ← hlast,
    bytesOf_chop (Nat.div_mul_le_self _ _)]
  exact congrArg Except.ok (List.take_append_drop _ _)

end BlockCipher

import Mathlib

/-!
# Go strings, `http.Header`, and headers passed to libquic and back

A Go string is its bytes. An `http.Header` is a Go map from keys to lists of values: an
association list with one entry per key (`AList`), listed in one of the orders in which Go may
range over the map.

A header goes to libquic as two packed byte buffers and two arrays of C `int` lengths
(`digSpdyHeader`, `stream.go:72–97`), one key-value pair per value, and `CreateSpdyHeaderBlock`
(`go_utils.cc:35–42`) reads the pairs back into a `SpdyHeaderBlock` with `block[key] = value`.
A header comes back through `CreateGoSpdyHeader` (`go_utils.cc:6–25`) and `createHeader`
(`stream.go:48–70`). Every piece is read from exactly its own bytes
(`CreateSpdyHeaderBlock_digSpdyHeader`), but the assignment keeps one value per key: what comes
back under a lowercased key is the last value packed under it (`roundTrip_lookup`).
-/

namespace GoQuic

/-- A Go string: its bytes, which need not be UTF-8. -/
abbrev GoString := List UInt8

/-- A Go string literal of ASCII characters. -/
def GoString.ascii (s : String) : GoString := s.toList.map Char.toUInt8

/-- `strconv.Itoa`. -/
def Itoa (n : Int) : GoString := GoString.ascii (toString n)

/-- `http.Header`, a `map[string][]string`. -/
abbrev Header := AList fun _ : GoString => List GoString

namespace Header

/-- `Header.Set` on a key that `CanonicalMIMEHeaderKey` leaves as it is: the key's values become
`[value]`. The keys this code sets, `:status` and `:version`, hold `:`, which is not a token
byte, so they are left as they are. -/
def Set (h : Header) (key value : GoString) : Header := h.insert key [value]

theorem mem_Set {h : Header} {key value k : GoString} : k ∈ h.Set key value ↔ k = key ∨ k ∈ h :=
  AList.mem_insert h

end Header

/-! ### Packing a header for libquic -/

/-- The buffers `digSpdyHeader` fills: the keys and the values packed end to end, and the length
of each as a C `int`. -/
structure Packed where
  keys : GoString
  keylen : List Int32
  values : GoString
  valuelen : List Int32
  deriving DecidableEq

/-- One pass of the inner loop of `digSpdyHeader`: write the key and the value, and append their
lengths, converted to C `int`s. -/
def Packed.push (p : Packed) (key value : GoString) : Packed :=
  ⟨p.keys ++ key, p.keylen ++ [Int32.ofNat key.length], p.values ++ value,
    p.valuelen ++ [Int32.ofNat value.length]⟩

/-- The packed form of a list of key-value pairs. -/
def pack (pairs : List (GoString × GoString)) : Packed :=
  pairs.foldl (fun p kv => p.push kv.1 kv.2) ⟨[], [], [], []⟩

/-- A `SpdyHeaderBlock`, as the code uses it: `block[key] = value` stores `value` for `key`. -/
abbrev SpdyHeaderBlock := AList fun _ : GoString => GoString

section Conversion

-- `strings.ToLower`, on whatever bytes the keys hold
variable (toLower : GoString → GoString)

/-- The pairs `digSpdyHeader` packs: one per value, with the key lowercased, in the order Go
ranges over the map and then over the values. -/
def headerPairs (header : Header) : List (GoString × GoString) :=
  header.entries.flatMap fun e => e.2.map fun value => (toLower e.1, value)

/-- `digSpdyHeader` (`stream.go:72–97`). `bytes.Buffer.WriteString` always returns a nil error,
so its loop never breaks. -/
def digSpdyHeader (header : Header) : Packed :=
  header.foldl (fun p key mvalue => mvalue.foldl (fun p value => p.push (toLower key) value) p)
    ⟨[], [], [], []⟩

theorem digSpdyHeader_eq (header : Header) :
    digSpdyHeader toLower header = pack (headerPairs toLower header) := by
  simp only [digSpdyHeader, AList.foldl, pack, headerPairs, List.foldl_flatMap, List.foldl_map]

end Conversion

/-- `base::StringPiece(ptr, len)` over the buffer `ptr` points into: the `len` bytes from `ptr`,
when they lie inside the buffer (`none` otherwise: the read is out of bounds). -/
def stringPiece (buf : GoString) (ptr : Int) (len : Int32) : Option GoString :=
  if 0 ≤ ptr ∧ 0 ≤ len.toInt ∧ ptr + len.toInt ≤ buf.length then
    some ((buf.drop ptr.toNat).take len.toInt.toNat)
  else none

/-- The loop of `CreateSpdyHeaderBlock` from pair `i` on, with `n` pairs left, the lengths still to
read, and the pointers `key_ptr` and `value_ptr` as offsets into their buffers. -/
def createBlockLoop (keys values : GoString) :
    Nat → List Int32 → List Int32 → Int → Int → SpdyHeaderBlock → Option SpdyHeaderBlock
  | 0, _, _, _, _, block => some block
  | n + 1, kl :: kls, vl :: vls, keyPtr, valuePtr, block =>
    match stringPiece keys keyPtr kl, stringPiece values valuePtr vl with
    | some key, some value =>
      createBlockLoop keys values n kls vls (keyPtr + kl.toInt) (valuePtr + vl.toInt)
        (block.insert key value)
    | _, _ => none
  -- `key_len[i]` past the end of the array
  | _ + 1, _, _, _, _, _ => none

/-- `CreateSpdyHeaderBlock` (`go_utils.cc:35–42`) on buffers whose first bytes `key_ptr` and
`value_ptr` point to. -/
def CreateSpdyHeaderBlock (block : SpdyHeaderBlock) (N : Int32) (keys : GoString)
    (keyLen : List Int32) (values : GoString) (valueLen : List Int32) : Option SpdyHeaderBlock :=
  createBlockLoop keys values N.toInt.toNat keyLen valueLen 0 0 block

/-- `CreateGoSpdyHeader` (`go_utils.cc:6–25`): the block's pairs in its order, as pointer and
length arrays. The lengths are C `int`s; the block's strings here are pieces read with C `int`
lengths, so they fit. -/
def CreateGoSpdyHeader (block : SpdyHeaderBlock) : List (GoString × GoString) :=
  block.entries.map fun e => (e.1, e.2)

/-- `createHeader` (`stream.go:48–70`): append each value to the values of its key. -/
def createHeader (pairs : List (GoString × GoString)) : Header :=
  pairs.foldl (fun h kv =>
    match h.lookup kv.1 with
    | none => h.insert kv.1 [kv.2]
    | some v => h.insert kv.1 (v ++ [kv.2])) ∅

/-! ### Reading the buffers back -/

/-- Every length of the pairs, and their number, fits a C `int`. -/
def FitsCInt (pairs : List (GoString × GoString)) : Prop :=
  pairs.length < 2 ^ 31 ∧ ∀ kv ∈ pairs, kv.1.length < 2 ^ 31 ∧ kv.2.length < 2 ^ 31

theorem pack_eq (pairs : List (GoString × GoString)) :
    pack pairs = ⟨(pairs.map Prod.fst).flatten, pairs.map (fun kv => Int32.ofNat kv.1.length),
      (pairs.map Prod.snd).flatten, pairs.map (fun kv => Int32.ofNat kv.2.length)⟩ := by
  -- the accumulator of the fold, from any packed prefix
  suffices h : ∀ p : Packed, pairs.foldl (fun p kv => p.push kv.1 kv.2) p =
      ⟨p.keys ++ (pairs.map Prod.fst).flatten,
        p.keylen ++ pairs.map (fun kv => Int32.ofNat kv.1.length),
        p.values ++ (pairs.map Prod.snd).flatten,
        p.valuelen ++ pairs.map (fun kv => Int32.ofNat kv.2.length)⟩ from h _
  induction pairs with
  | nil => simp
  | cons kv pairs ih =>
    intro p
    rw [List.foldl_cons, ih]
    simp [Packed.push]

/-- A piece is read from exactly its own bytes. -/
theorem stringPiece_append (pre s post : GoString) (hs : s.length < 2 ^ 31) :
    stringPiece (pre ++ s ++ post) pre.length (Int32.ofNat s.length) = some s := by
  have hlen : (Int32.ofNat s.length).toInt = s.length := Int32.toInt_ofNat_of_lt hs
  rw [stringPiece, hlen, if_pos (by simp only [List.length_append, Int.natCast_add]; omega)]
  simp

/-- From the pointers at the end of `keyPre` and `valuePre`, the loop reads each of `pairs` from
its own bytes and stores it. -/
theorem createBlockLoop_pack (keyPre valuePre : GoString) (block : SpdyHeaderBlock)
    (pairs : List (GoString × GoString))
    (hfit : ∀ kv ∈ pairs, kv.1.length < 2 ^ 31 ∧ kv.2.length < 2 ^ 31) :
    createBlockLoop (keyPre ++ (pairs.map Prod.fst).flatten)
        (valuePre ++ (pairs.map Prod.snd).flatten)
        pairs.length (pairs.map fun kv => Int32.ofNat kv.1.length)
        (pairs.map fun kv => Int32.ofNat kv.2.length) keyPre.length valuePre.length block =
      some (pairs.foldl (fun b kv => b.insert kv.1 kv.2) block) := by
  induction pairs generalizing keyPre valuePre block with
  | nil => rfl
  | cons kv pairs ih =>
    obtain ⟨hk, hv⟩ := hfit kv List.mem_cons_self
    simp only [List.map_cons, List.flatten_cons, List.length_cons, ← List.append_assoc]
    rw [createBlockLoop, stringPiece_append _ _ _ hk, stringPiece_append _ _ _ hv]
    simp only [Int32.toInt_ofNat_of_lt hk, Int32.toInt_ofNat_of_lt hv, List.foldl_cons]
    have := ih (keyPre ++ kv.1) (valuePre ++ kv.2) (block.insert kv.1 kv.2)
      fun kv' h => hfit kv' (List.mem_cons_of_mem _ h)
    simpa using this

/-- Packed by `digSpdyHeader`, every key and value is read back from exactly its own bytes: the
block is the pairs stored one after another. -/
theorem CreateSpdyHeaderBlock_digSpdyHeader (toLower : GoString → GoString) (header : Header)
    (hfit : FitsCInt (headerPairs toLower header)) :
    let p := digSpdyHeader toLower header
    CreateSpdyHeaderBlock ∅ (Int32.ofNat p.keylen.length) p.keys p.keylen p.values p.valuelen =
      some ((headerPairs toLower header).foldl (fun b kv => b.insert kv.1 kv.2) ∅) := by
  intro p
  have hp : p = pack (headerPairs toLower header) := digSpdyHeader_eq toLower header
  have hN : (Int32.ofNat p.keylen.length).toInt.toNat = (headerPairs toLower header).length := by
    rw [hp, pack_eq, List.length_map, Int32.toInt_ofNat_of_lt hfit.1]
    rfl
  rw [CreateSpdyHeaderBlock, hN, hp, pack_eq]
  have := createBlockLoop_pack [] [] ∅ (headerPairs toLower header) hfit.2
  simpa using this

/-! ### What a header keeps on the way -/

/-- The values packed under key `k`, in order. -/
def valuesUnder (k : GoString) (pairs : List (GoString × GoString)) : List GoString :=
  pairs.filterMap fun kv => if kv.1 = k then some kv.2 else none

/-- Storing pairs one after another keeps, for each key, the last value stored under it. -/
theorem lookup_foldl_insert (k : GoString) (pairs : List (GoString × GoString))
    (block : SpdyHeaderBlock) :
    (pairs.foldl (fun b kv => b.insert kv.1 kv.2) block).lookup k =
      (valuesUnder k pairs).getLast?.or (block.lookup k) := by
  induction pairs generalizing block with
  | nil => simp [valuesUnder]
  | cons kv pairs ih =>
    rw [List.foldl_cons, ih]
    by_cases hk : kv.1 = k
    · -- the value just stored comes last among those under `k`
      simp [valuesUnder, hk, List.getLast?_cons]
    · have hl : (block.insert kv.1 kv.2).lookup k = block.lookup k :=
        AList.lookup_insert_ne (Ne.symm hk)
      simp [valuesUnder, hk, hl]

/-- `createHeader` on the pairs of a block, whose keys are distinct, gives each key its one
value. -/
theorem lookup_createHeader_of_nodupKeys (k : GoString) :
    ∀ (l : List (Sigma fun _ : GoString => GoString)) (h : Header), l.NodupKeys →
      (∀ e ∈ l, e.1 ∉ h) →
      ((l.map fun e => (e.1, e.2)).foldl (fun h kv =>
          match h.lookup kv.1 with
          | none => h.insert kv.1 [kv.2]
          | some v => h.insert kv.1 (v ++ [kv.2])) h).lookup k =
        ((l.dlookup k).map fun v => [v]).or (h.lookup k)
  | [], h, _, _ => by simp
  | ⟨key, value⟩ :: l, h, hnd, hnew => by
    obtain ⟨hkey, hnd⟩ := List.nodupKeys_cons.mp hnd
    have hnone : h.lookup key = none := AList.lookup_eq_none.mpr (hnew _ List.mem_cons_self)
    rw [List.map_cons, List.foldl_cons]
    simp only [hnone]
    -- the key is new, and none of the keys after it is the same
    have hnew' : ∀ e ∈ l, e.1 ∉ h.insert key [value] := by
      intro e hm hmem
      rcases (AList.mem_insert h).mp hmem with he | he
      · apply hkey
        show key ∈ l.keys
        rw [← he]
        exact List.mem_keys_of_mem hm
      · exact hnew e (List.mem_cons_of_mem _ hm) he
    rw [lookup_createHeader_of_nodupKeys k l _ hnd hnew']
    by_cases hk : k = key
    · subst hk
      rw [List.dlookup_eq_none.mpr hkey, List.dlookup_cons_eq, AList.lookup_insert]
      rfl
    · rw [List.dlookup_cons_ne l _ hk, AList.lookup_insert_ne hk]

theorem lookup_createHeader_CreateGoSpdyHeader (block : SpdyHeaderBlock) (k : GoString) :
    (createHeader (CreateGoSpdyHeader block)).lookup k = (block.lookup k).map fun v => [v] := by
  rw [createHeader, CreateGoSpdyHeader,
    lookup_createHeader_of_nodupKeys k _ ∅ block.nodupKeys (fun _ _ => AList.notMem_empty _)]
  simp [AList.lookup]

/-- A header sent to libquic with `WriteHeader` and read back as a request's or a response's
headers are: packed by `digSpdyHeader`, read into a block with `N = len(keylen)`, and converted
back. -/
def roundTrip (toLower : GoString → GoString) (header : Header) : Option Header :=
  let p := digSpdyHeader toLower header
  (CreateSpdyHeaderBlock ∅ (Int32.ofNat p.keylen.length) p.keys p.keylen p.values p.valuelen).map
    fun block => createHeader (CreateGoSpdyHeader block)

/-- Sent to libquic and read back, a header keeps for each lowercased key only the last value
packed under it. The other values of a key with several, and those of keys that lowercase to the
same key, are dropped. -/
theorem roundTrip_lookup (toLower : GoString → GoString) (header : Header)
    (hfit : FitsCInt (headerPairs toLower header)) :
    ∃ h', roundTrip toLower header = some h' ∧
      ∀ k, h'.lookup k =
        (valuesUnder k (headerPairs toLower header)).getLast?.map fun v => [v] := by
  have hb := CreateSpdyHeaderBlock_digSpdyHeader toLower header hfit
  refine ⟨createHeader (CreateGoSpdyHeader
    ((headerPairs toLower header).foldl (fun b kv => b.insert kv.1 kv.2) ∅)), ?_, fun k => ?_⟩
  · simp only [roundTrip]
    rw [hb]
    rfl
  · rw [lookup_createHeader_CreateGoSpdyHeader, lookup_foldl_insert, AList.lookup_empty,
      Option.or_none]

/-- `strings.ToLower` on ASCII bytes. -/
def asciiToLower (s : GoString) : GoString := s.map fun b => if 65 ≤ b ∧ b ≤ 90 then b + 32 else b

/-- The header `a: 1, 2` comes back as `a: 2`. -/
theorem roundTrip_two_values :
    FitsCInt (headerPairs asciiToLower
        (AList.singleton (GoString.ascii "a") [GoString.ascii "1", GoString.ascii "2"])) ∧
      ∃ h', roundTrip asciiToLower
          (AList.singleton (GoString.ascii "a") [GoString.ascii "1", GoString.ascii "2"]) =
            some h' ∧
        h'.lookup (GoString.ascii "a") = some [GoString.ascii "2"] := by
  have hfit : FitsCInt (headerPairs asciiToLower
      (AList.singleton (GoString.ascii "a") [GoString.ascii "1", GoString.ascii "2"])) := by
    unfold FitsCInt
    decide
  obtain ⟨h', hr, hl⟩ := roundTrip_lookup asciiToLower _ hfit
  refine ⟨hfit, h', hr, ?_⟩
  rw [hl]
  decide

end GoQuic

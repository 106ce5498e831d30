import GoQuic.Server.Response

/-!
# Headers handed to libquic

`QuicServerStream.WriteHeader`, `QuicServerStream.WriteTrailers` (`quicstream_server.go:21–54`)
and `QuicClientStream.WriteHeader` (`quicstream_client.go:22–34`) pack a header with
`digSpdyHeader` and pass `&keys[0]`, `&keylen[0]`, `&values[0]` and `&valuelen[0]` to the cgo
call. The address of the first element of an empty slice is a run-time panic. The four slices
are all non-empty exactly when some pair has a non-empty key and some pair a non-empty value
(`headerArgs_isSome_iff`).

The header the server's `WriteHeader` gets always holds `:version: HTTP/1.1`
(`WriteHeader_sentHeader_isSome`), so it never panics. The trailers are what the handler left
in its header after `WriteHeader`, and the only guard before `WriteTrailers` is
`len(trailers) > 0`. So the session's goroutine panics exactly when the trailers it writes pack no
key byte or no value byte (`performAll_responseCalls_eq_none_iff`): a handler that adds a header
after `WriteHeader` with only `""` values, or none, makes it panic (`trailers_panic`).
-/

namespace GoQuic

open GoString

/-- A call into libquic through cgo (`adaptor.cc:259–288`, `adaptor_client.cc:107–117`), with a
header as the buffers and lengths it reads. -/
inductive CCall where
  | quicSimpleServerStreamWriteHeaders (headerSize : Int32) (header : Packed) (isEmptyBody : Bool)
  | quicSimpleServerStreamWriteOrBufferData (buf : GoString) (fin : Bool)
  | quicSimpleServerStreamWriteTrailers (headerSize : Int32) (header : Packed)
  | quicSpdyClientStreamWriteHeaders (headerSize : Int32) (header : Packed) (isEmptyBody : Bool)
  deriving DecidableEq

section Calls

-- `strings.ToLower`, on whatever bytes the keys hold
variable (toLower : GoString → GoString)

/-- The header arguments of the cgo calls: `C.int(len(keylen))` and the buffers `digSpdyHeader`
fills, each passed as `&s[0]`, which panics (`none`) on an empty slice. -/
def headerArgs (header : Header) : Option (Int32 × Packed) := do
  let p := digSpdyHeader toLower header
  let _ ← p.keys.head?
  let _ ← p.keylen.head?
  let _ ← p.values.head?
  let _ ← p.valuelen.head?
  pure (Int32.ofNat p.keylen.length, p)

/-- `QuicServerStream.WriteHeader` (`quicstream_server.go:21–33`). -/
def QuicServerStream.WriteHeader (header : Header) (isBodyEmpty : Bool) : Option CCall :=
  (headerArgs toLower header).map fun a => .quicSimpleServerStreamWriteHeaders a.1 a.2 isBodyEmpty

/-- `QuicServerStream.WriteOrBufferData` (`quicstream_server.go:35–46`): an empty body goes as a
nil pointer, so no slice is indexed. -/
def QuicServerStream.WriteOrBufferData (body : GoString) (fin : Bool) : Option CCall :=
  some (.quicSimpleServerStreamWriteOrBufferData body fin)

/-- `QuicServerStream.WriteTrailers` (`quicstream_server.go:48–54`). -/
def QuicServerStream.WriteTrailers (header : Header) : Option CCall :=
  (headerArgs toLower header).map fun a => .quicSimpleServerStreamWriteTrailers a.1 a.2

/-- `QuicClientStream.WriteHeader` (`quicstream_client.go:22–34`). -/
def QuicClientStream.WriteHeader (header : Header) (isBodyEmpty : Bool) : Option CCall :=
  (headerArgs toLower header).map fun a => .quicSpdyClientStreamWriteHeaders a.1 a.2 isBodyEmpty

/-- A call of `SimpleServerStream` on its `QuicServerStream`, made on the session's goroutine. -/
def StreamCall.perform : StreamCall → Option CCall
  | .writeHeader header isBodyEmpty => QuicServerStream.WriteHeader toLower header isBodyEmpty
  | .writeOrBufferData body fin => QuicServerStream.WriteOrBufferData body fin
  | .writeTrailers header => QuicServerStream.WriteTrailers toLower header

/-- The calls made in order; `none` when one of them panics. -/
def performAll (calls : List StreamCall) : Option (List CCall) :=
  calls.mapM (StreamCall.perform toLower)

end Calls

/-- The header `QuicRoundTripper.RoundTrip` (`client.go:78–88`) writes: a copy of the request's
header, then `:authority`, `:method`, `:path` and `:scheme` set. -/
def roundTripHeader (requestHeader : Header) (hostname method requestURI scheme : GoString) :
    Header :=
  (((requestHeader.Set (ascii ":authority") hostname).Set (ascii ":method") method).Set
    (ascii ":path") requestURI).Set (ascii ":scheme") scheme

/-! ### When a slice is empty -/

section Slices

variable {toLower : GoString → GoString}

/-- `headerArgs` returns exactly when none of the four slices is empty. -/
theorem headerArgs_isSome_iff_ne_nil (header : Header) :
    (headerArgs toLower header).isSome ↔
      (digSpdyHeader toLower header).keys ≠ [] ∧ (digSpdyHeader toLower header).keylen ≠ [] ∧
        (digSpdyHeader toLower header).values ≠ [] ∧
          (digSpdyHeader toLower header).valuelen ≠ [] := by
  simp only [headerArgs]
  generalize digSpdyHeader toLower header = p
  obtain ⟨keys, keylen, values, valuelen⟩ := p
  cases keys <;> cases keylen <;> cases values <;> cases valuelen <;> simp

/-- The four slices are non-empty exactly when some pair has a non-empty key, lowercased, and some
pair a non-empty value: the lengths are one per pair, the buffers the pairs end to end. -/
theorem headerArgs_isSome_iff (header : Header) :
    (headerArgs toLower header).isSome ↔
      (∃ kv ∈ headerPairs toLower header, kv.1 ≠ []) ∧
        ∃ kv ∈ headerPairs toLower header, kv.2 ≠ [] := by
  rw [headerArgs_isSome_iff_ne_nil, digSpdyHeader_eq, pack_eq]
  simp only [ne_eq, List.flatten_eq_nil_iff, List.map_eq_nil_iff, List.forall_mem_map, not_forall]
  constructor
  · rintro ⟨⟨kv, hkv, hk⟩, -, ⟨kv', hkv', hv⟩, -⟩
    exact ⟨⟨kv, hkv, hk⟩, kv', hkv', hv⟩
  · -- a pair with a non-empty key is a pair, so neither slice of lengths is empty
    rintro ⟨⟨kv, hkv, hk⟩, kv', hkv', hv⟩
    have hne : ¬headerPairs toLower header = [] := List.ne_nil_of_mem hkv
    exact ⟨⟨kv, hkv, hk⟩, hne, ⟨kv', hkv', hv⟩, hne⟩

theorem headerArgs_eq_none_of_values {header : Header}
    (h : (digSpdyHeader toLower header).values = []) : headerArgs toLower header = none := by
  rw [← Option.not_isSome_iff_eq_none, headerArgs_isSome_iff_ne_nil]
  exact fun hs => hs.2.2.1 h

/-- A value under a key of the header is packed, with the key lowercased. -/
theorem mem_headerPairs_of_lookup {header : Header} {k v : GoString} {vs : List GoString}
    (hl : header.lookup k = some vs) (hv : v ∈ vs) :
    (toLower k, v) ∈ headerPairs toLower header := by
  rw [headerPairs, List.mem_flatMap]
  exact ⟨⟨k, vs⟩, AList.mem_lookup_iff.mp hl, List.mem_map.mpr ⟨v, hv, rfl⟩⟩

section ToLower

-- `strings.ToLower` turns no non-empty string into the empty one
variable (htl : ∀ s : GoString, s ≠ [] → toLower s ≠ [])
include htl

/-- One non-empty value under a non-empty key is enough for the slices to be non-empty. -/
theorem headerArgs_isSome_of_lookup {header : Header} {k v : GoString} {vs : List GoString}
    (hl : header.lookup k = some vs) (hk : k ≠ []) (hv : v ∈ vs) (hv' : v ≠ []) :
    (headerArgs toLower header).isSome := by
  have hmem : (toLower k, v) ∈ headerPairs toLower header := mem_headerPairs_of_lookup hl hv
  exact (headerArgs_isSome_iff header).mpr ⟨⟨_, hmem, htl k hk⟩, _, hmem, hv'⟩

/-- The header of `WriteHeader`'s closure holds `:version: HTTP/1.1`. -/
theorem WriteHeader_sentHeader_isSome (copiedHeader : Header) (statusCode : Int)
    (isBodyEmpty : Bool) :
    (QuicServerStream.WriteHeader toLower (sentHeader copiedHeader statusCode)
      isBodyEmpty).isSome := by
  have hl : (sentHeader copiedHeader statusCode).lookup (ascii ":version") =
      some [ascii "HTTP/1.1"] := by
    rw [sentHeader, Header.Set, AList.lookup_insert]
  rw [QuicServerStream.WriteHeader, Option.isSome_map]
  exact headerArgs_isSome_of_lookup htl hl (by decide) (List.mem_singleton_self _) (by decide)

end ToLower

end Slices

/-! ### The calls of the session -/

/-- Every `WriteHeader` the session makes carries the header of `WriteHeader`'s closure. -/
theorem eq_sentHeader_of_mem_runSession {header : Header} {closed : Bool} {fns : List SessionFn}
    {headerSent h : Header} {e : Bool}
    (hm : StreamCall.writeHeader h e ∈ runSession header closed fns headerSent) :
    ∃ copiedHeader statusCode, h = sentHeader copiedHeader statusCode := by
  induction fns generalizing headerSent with
  | nil => cases hm
  | cons f fns ih =>
    rw [runSession, List.mem_append] at hm
    rcases hm with hm | hm
    · -- the call comes from this closure, which must be `WriteHeader`'s
      cases f with
      | writeHeader c code =>
        refine ⟨c, code, ?_⟩
        cases closed <;> simp [SessionFn.run] at hm
        exact hm.1
      | write b => cases closed <;> simp [SessionFn.run] at hm
      | finish =>
        cases closed
        · exact absurd rfl (List.any_eq_false.mp (any_finishCalls header headerSent) _ hm)
        · simp [SessionFn.run] at hm
    · exact ih hm

section Perform

variable {toLower : GoString → GoString}

/-- The calls panic exactly when one of them does. -/
theorem performAll_eq_none_iff (calls : List StreamCall) :
    performAll toLower calls = none ↔ ∃ c ∈ calls, c.perform toLower = none := by
  induction calls with
  | nil => simp [performAll]
  | cons c calls ih =>
    rw [performAll] at ih ⊢
    cases hc : c.perform toLower with
    | none => simp [List.mapM_cons, hc]
    | some r =>
      cases hrest : calls.mapM (StreamCall.perform toLower) with
      | none => simp_all
      | some rs => simp_all

/-- `WriteTrailers` panics exactly when no pair has a non-empty key or none a non-empty value. -/
theorem WriteTrailers_eq_none_iff (trailers : Header) :
    QuicServerStream.WriteTrailers toLower trailers = none ↔
      (∀ kv ∈ headerPairs toLower trailers, kv.1 = []) ∨
        ∀ kv ∈ headerPairs toLower trailers, kv.2 = [] := by
  rw [QuicServerStream.WriteTrailers, Option.map_eq_none_iff, ← Option.not_isSome_iff_eq_none,
    headerArgs_isSome_iff, not_and_or]
  simp only [not_exists, not_and, not_not]

/-- For every request and handler, the session's calls panic exactly when it writes trailers whose
pairs have no non-empty key or no non-empty value: `WriteHeader` never panics. -/
theorem performAll_responseCalls_eq_none_iff (htl : ∀ s : GoString, s ≠ [] → toLower s ≠ [])
    (requestURIOk : GoString → Bool) (header : Header) (ops : List HandlerOp) :
    performAll toLower (responseCalls requestURIOk header ops) = none ↔
      ∃ trailers, .writeTrailers trailers ∈ responseCalls requestURIOk header ops ∧
        ((∀ kv ∈ headerPairs toLower trailers, kv.1 = []) ∨
          ∀ kv ∈ headerPairs toLower trailers, kv.2 = []) := by
  rw [performAll_eq_none_iff]
  constructor
  · rintro ⟨c, hc, hnone⟩
    cases c with
    | writeHeader h e =>
      -- the header comes from `WriteHeader`'s closure
      unfold responseCalls at hc
      split at hc
      · cases hc
      · obtain ⟨c, code, rfl⟩ := eq_sentHeader_of_mem_runSession hc
        have hs := WriteHeader_sentHeader_isSome htl c code e
        simp only [StreamCall.perform] at hnone
        rw [hnone] at hs
        cases hs
    | writeOrBufferData b fin => cases hnone
    | writeTrailers t => exact ⟨t, hc, (WriteTrailers_eq_none_iff t).mp hnone⟩
  · rintro ⟨t, ht, hpanic⟩
    exact ⟨.writeTrailers t, ht, (WriteTrailers_eq_none_iff t).mpr hpanic⟩

/-- With ASCII lower-casing, a handler that calls `WriteHeader(200)` and then sets `x-a: 1` sends
trailers with a key and a value byte. -/
theorem performAll_responseCalls_eq_none_iff_ascii :
    (∀ s : GoString, s ≠ [] → asciiToLower s ≠ []) ∧
      (performAll asciiToLower (responseCalls (fun _ => true) ∅
          [.writeHeader 200, .setHeader (AList.singleton (ascii "x-a") [ascii "1"])]) = none ↔
        ∃ trailers, .writeTrailers trailers ∈ responseCalls (fun _ => true) ∅
            [.writeHeader 200, .setHeader (AList.singleton (ascii "x-a") [ascii "1"])] ∧
          ((∀ kv ∈ headerPairs asciiToLower trailers, kv.1 = []) ∨
            ∀ kv ∈ headerPairs asciiToLower trailers, kv.2 = [])) := by
  have htl : ∀ s : GoString, s ≠ [] → asciiToLower s ≠ [] := by
    intro s hs
    simpa [asciiToLower] using hs
  exact ⟨htl, performAll_responseCalls_eq_none_iff htl (fun _ => true) ∅ _⟩

end Perform

/-! ### Trailers with no value byte -/

/-- For every request whose `:path` parses, every status and every header key but `:status` and
`:version`: a handler that calls `WriteHeader` and then sets that key with only `""` values, or
none, leaves it to the trailers. `len(trailers) > 0` lets `WriteTrailers` through, the values pack
to an empty slice, and `&values[0]` panics on the session's goroutine. -/
theorem trailers_panic (toLower : GoString → GoString) (requestURIOk : GoString → Bool)
    (header : Header)
    (statusCode : Int) (key : GoString) (vs : List GoString)
    (hpath : requestURIOk (header.Get (ascii ":path")) = true)
    (hkey : key ≠ ascii ":status" ∧ key ≠ ascii ":version") (hvs : ∀ v ∈ vs, v = []) :
    responseCalls requestURIOk header
        [.writeHeader statusCode, .setHeader (AList.singleton key vs)] =
      [.writeHeader (sentHeader ∅ statusCode) false, .writeTrailers (AList.singleton key vs)] ∧
      (digSpdyHeader toLower (AList.singleton key vs)).values = [] ∧
      performAll toLower (responseCalls requestURIOk header
        [.writeHeader statusCode, .setHeader (AList.singleton key vs)]) = none := by
  have hsent : key ∉ sentHeader ∅ statusCode := by
    rw [sentHeader, Header.mem_Set, Header.mem_Set]
    rintro (h | h | h)
    · exact hkey.2 h
    · exact hkey.1 h
    · simp [AList.mem_keys, AList.keys_empty] at h
  -- the trailers are the whole header the handler left
  have htrailers : trailersOf (AList.singleton key vs) (sentHeader ∅ statusCode) =
      AList.singleton key vs := by
    simp [trailersOf, AList.foldl, AList.singleton, hsent]
  have hcalls : responseCalls requestURIOk header
      [.writeHeader statusCode, .setHeader (AList.singleton key vs)] =
        [.writeHeader (sentHeader ∅ statusCode) false,
          .writeTrailers (AList.singleton key vs)] := by
    simp [responseCalls, ProcessRequest, hpath, serve, HandlerOp.run,
      SpdyResponseWriter.WriteHeader, SpdyResponseWriter.new, SpdyResponseWriter.Flush,
      Bufio.Writer.Flush_of_buf_nil, Bufio.Writer.new, SpdyResponseWriter.sendChunks, runSession,
      SessionFn.run, cloneHeader, finishCalls, htrailers]
  -- every value is `""`, so nothing is written to the values buffer
  have hvalues : (digSpdyHeader toLower (AList.singleton key vs)).values = [] := by
    rw [digSpdyHeader_eq, pack_eq]
    simpa [headerPairs, AList.singleton] using hvs
  refine ⟨hcalls, hvalues, ?_⟩
  rw [hcalls, performAll_eq_none_iff]
  refine ⟨.writeTrailers (AList.singleton key vs), by simp, ?_⟩
  simp only [StreamCall.perform, QuicServerStream.WriteTrailers,
    headerArgs_eq_none_of_values hvalues, Option.map_none]

/-- A handler that calls `WriteHeader(200)` and then sets `x-a: ""` makes the session panic. -/
theorem trailers_panic_empty_value :
    (ascii "x-a" ≠ ascii ":status" ∧ ascii "x-a" ≠ ascii ":version") ∧
      performAll asciiToLower (responseCalls (fun _ => true) ∅
        [.writeHeader 200, .setHeader (AList.singleton (ascii "x-a") [[]])]) = none := by
  have hkey : ascii "x-a" ≠ ascii ":status" ∧ ascii "x-a" ≠ ascii ":version" := by decide
  exact ⟨hkey,
    (trailers_panic asciiToLower (fun _ => true) ∅ 200 (ascii "x-a") [[]] rfl hkey (by simp)).2.2⟩

end GoQuic

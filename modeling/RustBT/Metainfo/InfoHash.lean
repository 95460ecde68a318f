import RustBT.Metainfo.Properties

/-!
# The info hash is the hash of the `info` bytes as they stand in the buffer

`parse_info_hash` hashes the *re-encoding* of the decoded `info` dictionary (spec §4.6 step 4),
while peers hash the bytes of the `info` value as they appear in the torrent file. The two agree
because the decoder accepts only canonical spellings: by `decode_sound`, the root dictionary
re-encodes to the whole buffer, and the encoding of a dictionary is the concatenation of its
entries' encodings, so the `info` value's encoding is the contiguous run of the buffer between
the `4:info` key and the next key.

* `fromBytes_infoHash_slice` — for every accepted buffer, the buffer is the root's leading
  entries, the `info` key, the `info` value's encoding and the remaining entries, the `info`
  key occurs once, and the info hash is SHA-1 of that run of bytes.
-/

namespace RustBT

section InfoHash

variable {Url InfoHash : Type} (sha1 : List UInt8 → InfoHash) (parseUrl : Str → Option Url)

/-- The key of an entry strictly inside a sorted dictionary differs from every key after it.
Source: none: infrastructure
Kind: L -/
theorem ne_key_of_sortedKeys {before after : Dictionary} {k : List UInt8} {v : Bencode}
    (hs : SortedKeys (before ++ (k, v) :: after)) : ∀ p ∈ before ++ after, p.1 ≠ k := by
  simp only [SortedKeys, List.map_append, List.map_cons, List.pairwise_append,
    List.pairwise_cons, List.mem_map, List.mem_cons] at hs
  intro p hp e
  rcases List.mem_append.mp hp with hp | hp
  · exact keyLt_irrefl k (e ▸ hs.2.2 p.1 ⟨p, hp, rfl⟩ k (.inl rfl))
  · exact keyLt_irrefl k (e ▸ hs.2.1.1 p.1 ⟨p, hp, rfl⟩)

/-- **The info hash is SHA-1 of the `info` bytes of the buffer.** For every buffer that
`from_bytes` accepts: the root decodes to a dictionary with exactly one `info` entry, the buffer
is `d`, the entries before `info`, the key `4:info`, the re-encoded `info` value, the entries
after it and `e`; and the info hash is SHA-1 of that re-encoded value, which is therefore the
contiguous sub-slice of the buffer spelling the `info` value.
Source: `metainfo.rs` lines 86-104; spec §4.4 "Round-trip canonicality requirement", §8
property 7
Kind: P -/
theorem fromBytes_infoHash_slice {bytes : List UInt8} {m : MetainfoFile Url InfoHash}
    (h : MetainfoFile.fromBytes sha1 parseUrl bytes = .ok m) :
    ∃ before info after,
      decode bytes {} = .ok (.dict (before ++ (infoKey, info) :: after)) ∧
      (∀ p ∈ before ++ after, p.1 ≠ infoKey) ∧
      bytes = dictStart :: Bencode.encodeDict before ++ encodeBytes infoKey ++ info.encode ++
        Bencode.encodeDict after ++ [benEnd] ∧
      m.infoHash = sha1 info.encode := by
  obtain ⟨rootDict, infoDict, hdec, hinfo, hhash, -⟩ := fromBytes_eq_ok sha1 parseUrl h
  obtain ⟨henc, hwf⟩ := decode_sound rfl hdec
  obtain ⟨before, after, rfl, -⟩ := List.lookup_eq_some_iff.mp hinfo
  refine ⟨before, .dict infoDict, after, hdec, ne_key_of_sortedKeys hwf.keysSorted.1, ?_, hhash⟩
  rw [← henc]
  simp [Bencode.encodeDict_append]

/-- The info hash of scenario S7 is SHA-1 of its `info` bytes. Source: spec §8 S7. Kind: L -/
theorem fromBytes_infoHash_slice_s7 :
    ∃ m, MetainfoFile.fromBytes (fun b => b) (fun s => some s) s7Torrent = .ok m ∧
      ∃ before info after,
        decode s7Torrent {} = .ok (.dict (before ++ (infoKey, info) :: after)) ∧
        (∀ p ∈ before ++ after, p.1 ≠ infoKey) ∧
        s7Torrent = dictStart :: Bencode.encodeDict before ++ encodeBytes infoKey ++ info.encode ++
          Bencode.encodeDict after ++ [benEnd] ∧
        m.infoHash = info.encode := by
  obtain ⟨m, hm⟩ : ∃ m, MetainfoFile.fromBytes (fun b => b) (fun s => some s) s7Torrent = .ok m :=
    ⟨_, rfl⟩
  exact ⟨m, hm, fromBytes_infoHash_slice _ _ hm⟩

end InfoHash

end RustBT

import TcpEngine.Proofs.ArenaDiscipline
import TcpEngine.Proofs.Filling

/-!
# Checksums of segments in parts

The checksum of a segment is computed from two strings, a header and a payload, in a buffer of an
arena. It is that of the pseudo header and of both strings as one, each summed apart. So neither the
place where the segment is divided matters nor what the buffer held before, and the arena decides
only whether there is a checksum.

* `Segment.sum_parts`: the sums that a checksum is put together from.
* `Ledger.calls_lent`: a ledger in which one buffer was given and taken back.
* `segmentChecksum_framed`: the answer and the calls to the arena, for all strings and arenas.
-/

namespace TcpEngine

/-- The sums of pseudo header and segment together are the sum of all their words. -/
theorem Segment.sum_parts {b : Octets} (hb : b.length ≤ maxLen) (src dst : Address) :
    ∃ pseudo octets, Checksum.ofPseudoHeader src dst .tcp (UInt16.ofNat b.length) = .ok pseudo ∧
      Checksum.ofOctets b = .ok octets ∧
      Checksum.ofParts [pseudo, octets] = .ok (Checksum.folded (words b src dst)) := by
  have h := sum_eq hb src dst
  unfold sum at h
  obtain ⟨pseudo, hpseudo, h⟩ := Except.bind_eq_ok.mp h
  obtain ⟨octets, hoctets, h⟩ := Except.bind_eq_ok.mp h
  exact ⟨pseudo, octets, hpseudo, hoctets, h⟩

variable {α : Type} [Arena α] {arena arena' : Ledger α} {header payload : Octets} {src dst : Address}
  {r : Except Error UInt16}

/-- A buffer that was given is written down, and so is that it was taken back. -/
theorem Ledger.calls_lent {n : Nat} {b b' : Octets} (h : Arena.allocate arena n = (some b, arena'))
    (hb : b'.length = b.length) : (Arena.release arena' b').calls =
      arena.calls ++ [.allocate n (some b.length), .release b.length] := by
  show arena'.calls ++ [.release b'.length] = _
  rw [calls_allocate h, hb, List.append_assoc]
  rfl

/-- A ledger gives the buffer that the arena in it gives. -/
theorem Ledger.allocate_arena {n : Nat} {given : Option Octets}
    (h : Arena.allocate arena n = (given, arena')) : (Arena.allocate arena.arena n).1 = given := by
  cases h
  rfl

/-- One buffer is asked for. With its length alone it decides whether there is a checksum. -/
theorem Computed.framed (h : Computed arena header payload src dst r arena')
    (hmax : header.length + payload.length ≤ Segment.maxLen) :
    ∃ given, given = (Arena.allocate arena.arena
        (Checksum.pseudoHeaderLen + (header.length + payload.length))).1.map List.length ∧
      arena'.calls = arena.calls ++
        .allocate (Checksum.pseudoHeaderLen + (header.length + payload.length)) given ::
          (given.map ArenaCall.release).toList ∧
      r = if given = some (Checksum.pseudoHeaderLen + (header.length + payload.length)) then
          .ok (~~~Checksum.folded (Segment.words (header ++ payload) src dst))
        else .error .noMemory := by
  refine ⟨_, rfl, ?_⟩
  cases h with
  | tooLarge hlong => exact absurd hlong (Nat.not_lt.mpr hmax)
  | noBuffer _ hb =>
    rw [Ledger.allocate_arena hb, Ledger.calls_allocate hb]
    exact ⟨rfl, rfl⟩
  | wrongBuffer _ hb hne =>
    rw [Ledger.allocate_arena hb, Ledger.calls_lent hb rfl]
    exact ⟨rfl, (if_neg fun h => hne (Option.some.inj h)).symm⟩
  | @done _ b filled _ hb hlen hfilled =>
    have hback : filled.length = b.length := by
      rw [hfilled, hlen]
      simp
    have hwords : Checksum.total 0 filled = Segment.words (header ++ payload) src dst := by
      rw [hfilled, Segment.words_eq_total, List.length_append]
    rw [Ledger.allocate_arena hb, Ledger.calls_lent hb hback, hwords]
    exact ⟨rfl, (if_pos (congrArg some hlen)).symm⟩

/-- The checksum of a segment in two parts is refused if and only if they are too long together, and
the arena is not asked then. Otherwise it is asked once, for a buffer that holds the pseudo header
and both parts, and gets back what it gives. If that has the length asked for, the checksum is the
complement of the sums of the pseudo header and of both parts as one string, put together; if not,
there is no memory. So from whatever parts of the same string, and with whatever arena, there is no
other checksum. -/
theorem segmentChecksum_framed (arena : Ledger α) (header payload : Octets) (src dst : Address) :
    let length := header.length + payload.length
    let needed := Checksum.pseudoHeaderLen + length
    ∃ r arena', segmentChecksum arena header payload src dst = .ok (r, arena') ∧
      (r = .error .tooLarge ↔ Segment.maxLen < length) ∧
      (r = .error .tooLarge → arena' = arena) ∧
      (length ≤ Segment.maxLen → ∃ pseudo octets sum given,
        Checksum.ofPseudoHeader src dst .tcp (UInt16.ofNat length) = .ok pseudo ∧
        Checksum.ofOctets (header ++ payload) = .ok octets ∧
        Checksum.ofParts [pseudo, octets] = .ok sum ∧
        given = (Arena.allocate arena.arena needed).1.map List.length ∧
        arena'.calls = arena.calls ++
          .allocate needed given :: (given.map ArenaCall.release).toList ∧
        r = if given = some needed then .ok (~~~sum) else .error .noMemory) ∧
      ∀ {β : Type} [Arena β] (other other' : β) (header' payload' : Octets) (sum sum' : UInt16),
        header' ++ payload' = header ++ payload → r = .ok sum →
        segmentChecksum other header' payload' src dst = .ok (.ok sum', other') → sum' = sum := by
  intro length needed
  rcases Nat.lt_or_ge Segment.maxLen length with hlong | hmax
  · refine ⟨_, arena, if_pos hlong, iff_of_true rfl hlong, fun _ => rfl, fun hmax => ?_, ?_⟩
    · exact absurd hlong (Nat.not_lt.mpr hmax)
    · intro _ _ _ _ _ _ _ _ _ hr
      cases hr
  · obtain ⟨r, arena', hc, he⟩ := segmentChecksum_computed arena header payload src dst
    have hlen : (header ++ payload).length = length := List.length_append
    obtain ⟨given, hgiven, hcalls, hr⟩ := hc.framed hmax
    obtain ⟨pseudo, octets, hpseudo, hoctets, hsum⟩ :=
      Segment.sum_parts (b := header ++ payload) (hlen ▸ hmax) src dst
    rw [hlen] at hpseudo
    have hne : r ≠ .error .tooLarge := by
      rw [hr]
      split <;> nofun
    refine ⟨r, arena', he, iff_of_false hne (Nat.not_lt.mpr hmax), fun h => absurd h hne,
      fun _ => ⟨pseudo, octets, _, given, hpseudo, hoctets, hsum, hgiven, hcalls, hr⟩, ?_⟩
    intro β _ other other' header' payload' sum sum' hsame hr he'
    subst hr
    rw [segmentChecksum_words he, segmentChecksum_words he', hsame]

/-- Three octets have the same checksum whether they are divided behind the first or, with an arena
of another kind, behind the second. -/
theorem segmentChecksum_framed_odd : ∃ (a : Ledger Unbounded) (b : Scripted) (sum : UInt16),
    ([1] : Octets).length + ([2, 3] : Octets).length ≤ Segment.maxLen ∧
    segmentChecksum ({ arena := {} } : Ledger Unbounded) [1] [2, 3] ⟨10, 0, 0, 1⟩ ⟨10, 0, 0, 2⟩ =
      .ok (.ok sum, a) ∧
    a.calls = [.allocate 15 (some 15), .release 15] ∧
    ([1, 2] ++ [3] : Octets) = [1] ++ [2, 3] ∧
    segmentChecksum ({ script := [some 0] } : Scripted) [1, 2] [3] ⟨10, 0, 0, 1⟩ ⟨10, 0, 0, 2⟩ =
      .ok (.ok sum, b) := by
  have hmax : ([1] : Octets).length + ([2, 3] : Octets).length ≤ Segment.maxLen := by decide
  have hsame : ([1, 2] ++ [3] : Octets) = [1] ++ [2, 3] := rfl
  obtain ⟨r, a, he, -, -, hsum, hother⟩ := segmentChecksum_framed
    ({ arena := {} } : Ledger Unbounded) [1] [2, 3] ⟨10, 0, 0, 1⟩ ⟨10, 0, 0, 2⟩
  obtain ⟨pseudo, octets, sum, given, -, -, -, hgiven, hcalls, hr⟩ := hsum hmax
  cases hgiven
  obtain ⟨b, sum', he'⟩ : ∃ b sum', segmentChecksum ({ script := [some 0] } : Scripted) [1, 2] [3]
      ⟨10, 0, 0, 1⟩ ⟨10, 0, 0, 2⟩ = .ok (.ok sum', b) := ⟨_, _, rfl⟩
  cases hother { script := [some 0] } b [1, 2] [3] (~~~sum) sum' hsame hr he'
  exact ⟨a, b, _, hmax, by rw [he, hr]; rfl, hcalls, hsame, he'⟩

end TcpEngine

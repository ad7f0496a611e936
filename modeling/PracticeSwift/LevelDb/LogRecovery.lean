import Mathlib.Data.List.Infix
import PracticeSwift.LevelDb.LogReader

/-!
# Reading back a log

What a writer has emitted is read back, record by record and without a report.  Of a log that was
cut off anywhere, as by a crash, the records that were written completely are read back, and where
the cut is the reader finds the end of the file: `At` follows the reader through the file, one
physical record at a time.
-/

namespace PracticeSwift.LevelDb.Log

open Reader

variable {crc : Crc32c}

/-! ## Physical records -/

theorem toNat_length_header (crc : Crc32c) {p : Bytes} (h : p.length < 2 ^ 16) (t : RecordType)
    (tail : Bytes) :
    ((byteAt (header crc t p ++ tail) 4).setWidth 32 |||
      (byteAt (header crc t p ++ tail) 5).setWidth 32 <<< 8).toNat = p.length := by
  have hlow : byteAt (header crc t p ++ tail) 4 = BitVec.ofNat 8 p.length := rfl
  have hhigh : byteAt (header crc t p ++ tail) 5 = BitVec.ofNat 8 (p.length >>> 8) := rfl
  have hdiv : p.length >>> 8 = p.length / 256 := Nat.shiftRight_eq_div_pow _ _
  have hbyte : (BitVec.ofNat 8 (p.length / 256)).toNat = p.length / 256 := by
    rw [BitVec.toNat_ofNat, Nat.mod_eq_of_lt (by omega)]
  have hresult : ((BitVec.ofNat 8 p.length).setWidth 32).toNat = p.length % 256 := by
    rw [BitVec.toNat_setWidth, BitVec.toNat_ofNat, Nat.mod_eq_of_lt (by omega)]
  rw [hlow, hhigh, hdiv, toNat_or_shift (by omega) _ (by rw [hbyte]; omega), hresult, hbyte]
  omega

/-- The checksum of a header is the one of the type and the fragment. -/
theorem value_emitted (t : RecordType) (p more : Bytes) :
    crc.value (((header crc t p ++ (p ++ more)).drop 6).take (1 + p.length)) =
      Crc32c.unmask (decodeFixed32 (header crc t p ++ (p ++ more))) := by
  have htake : ((header crc t p ++ (p ++ more)).drop 6).take (1 + p.length) = [t.byte] ++ p := by
    show (t.byte :: (p ++ more)).take (1 + p.length) = t.byte :: p
    rw [Nat.add_comm, List.take_succ_cons, List.take_left]
  rw [htake, Crc32c.value, crc.extend_append, header, List.append_assoc, decodeFixed32_encode,
    Crc32c.unmask_mask]
  rfl

/-- A whole physical record in the buffer is taken off it. -/
theorem parseHeader_emitted {r : Reader} (hinitial : r.initialOffset = 0) {t : RecordType}
    (ht : t ≠ .kZeroType) {p more : Bytes} (hp : p.length < 2 ^ 16)
    (hbuffer : r.buffer = header crc t p ++ (p ++ more)) :
    r.parseHeader crc = ({ r with buffer := more }, typeOf t, p) := by
  have hlength := toNat_length_header crc hp t (p ++ more)
  have htype : (byteAt (header crc t p ++ (p ++ more)) 6).signExtend 32 = typeOf t := rfl
  have hne : typeOf t ≠ typeOf .kZeroType := by
    cases t <;> first | exact absurd rfl ht | decide
  have hdrop : (header crc t p ++ (p ++ more)).drop (kHeaderSize + p.length) = more := by
    rw [← List.append_assoc]
    exact List.drop_left' (by simp)
  have hfragment : ((header crc t p ++ (p ++ more)).drop kHeaderSize).take p.length = p := by
    rw [List.drop_left' (by simp), List.take_left]
  unfold parseHeader
  simp only [hbuffer, hlength, htype, value_emitted, hdrop, hfragment, hinitial]
  rw [if_neg (by simp), if_neg (fun h => hne h.1), if_neg (fun h => h.2 rfl),
    if_neg (show ¬ _ < (0 : BitVec 64) from BitVec.not_lt_zero)]

/-- A physical record that was cut off behind its header is the end of the file. -/
theorem parseHeader_cut {r : Reader} (heof : r.eof = true) {t : RecordType} {p tail : Bytes}
    (hp : p.length < 2 ^ 16) (htail : tail.length < p.length)
    (hbuffer : r.buffer = header crc t p ++ tail) :
    r.parseHeader crc = ({ r with buffer := [] }, kEof, []) := by
  have hlength := toNat_length_header crc hp t tail
  unfold parseHeader
  simp only [hbuffer, hlength, heof]
  rw [if_pos (by simp; omega), if_pos trivial]

/-! ## The position of the reader -/

/-- The reader has everything up to an offset in the current block behind it and `bytes` before
it. -/
structure At (r : Reader) (offset : ℕ) (bytes : Bytes) : Prop where
  initialOffset : r.initialOffset = 0
  resyncing : r.resyncing = false
  unread : r.buffer ++ r.file.rest = bytes
  le : offset ≤ kBlockSize
  buffered : r.buffer.length ≤ kBlockSize - offset
  full : r.eof = false → kBlockSize - offset ≤ r.buffer.length
  ended : r.eof = true → r.file.rest = []

/-- A reader that has been made stands at the end of no block. -/
theorem at_new (file : SequentialFile) (checksum : Bool) :
    At (Reader.new file checksum 0) kBlockSize file.rest where
  initialOffset := rfl
  resyncing := rfl
  unread := rfl
  le := Nat.le_refl _
  buffered := Nat.zero_le _
  full _ := Nat.le_of_eq (Nat.sub_self _)
  ended heof := nomatch heof

/-- A block that has been read begins behind the last one. -/
theorem At.refill {r r' : Reader} {offset : ℕ} {bytes : Bytes} (h : At r offset bytes)
    (heof : r.eof = false) (hrefill : { r with buffer := [] }.refill = some r') :
    At r' 0 (bytes.drop (kBlockSize - offset)) ∧ r'.reports = r.reports ∧
      r'.file.failures <:+ r.file.failures ∧ (kHeaderSize ≤ r'.buffer.length ∨ r'.eof = true) := by
  have hlength : r.buffer.length = kBlockSize - offset := Nat.le_antisymm h.buffered (h.full heof)
  have hrest : bytes.drop (kBlockSize - offset) = r.file.rest := by
    rw [← h.unread, ← hlength, List.drop_left]
  rw [hrest]
  unfold Reader.refill SequentialFile.read at hrefill
  split at hrefill
  · cases hrefill
  · rename_i buffer file hread
    split at hread
    · cases hread
    · obtain ⟨hbuffer, rfl⟩ := Prod.mk.inj hread
      obtain rfl := Option.some.inj hbuffer
      obtain rfl := Option.some.inj hrefill
      refine ⟨⟨h.initialOffset, h.resyncing, List.take_append_drop _ _, Nat.zero_le _, ?_, ?_, ?_⟩,
        rfl, List.tail_suffix _, ?_⟩
      · exact List.length_take_le _ _
      · intro hfull
        exact Nat.le_of_not_lt (of_decide_eq_false hfull)
      · intro hended
        have hlt := of_decide_eq_true hended
        rw [List.length_take] at hlt
        exact List.drop_of_length_le (by omega)
      · by_cases hlt : (r.file.rest.take kBlockSize).length < kBlockSize
        · exact .inr (decide_eq_true hlt)
        · have hheader : kHeaderSize ≤ kBlockSize := by decide
          exact .inl (Nat.le_trans hheader (Nat.le_of_not_lt hlt))

/-- No block is read only if the read fails. -/
theorem mem_failures_of_refill {r : Reader} (h : r.refill = none) : true ∈ r.file.failures := by
  unfold Reader.refill SequentialFile.read at h
  split at h
  · rename_i hread
    split at hread
    · rename_i hfailures
      rw [hfailures]
      exact List.mem_cons_self
    · cases hread
  · cases h

/-- Before a header is parsed the reader has gone to where one starts, if no read has failed. -/
theorem At.readPhysicalRecord {r : Reader} {offset : ℕ} {bytes : Bytes} (h : At r offset bytes)
    (crc : Crc32c) :
    (true ∈ r.file.failures ∧ (r.readPhysicalRecord crc).2.1 = kEof) ∨
      ∃ r', At r' (start offset) (bytes.drop (trailer offset)) ∧ r'.reports = r.reports ∧
        r'.file.failures <:+ r.file.failures ∧
        (kHeaderSize ≤ r'.buffer.length ∧ r.readPhysicalRecord crc = r'.parseHeader crc ∨
          r'.buffer.length < kHeaderSize ∧ r'.eof = true ∧
            r.readPhysicalRecord crc = ({ r' with buffer := [] }, kEof, [])) := by
  have hbuffered := h.buffered
  by_cases hspace : kBlockSize - offset < kHeaderSize
  · have hstart : start offset = 0 := if_pos hspace
    have htrailer : trailer offset = kBlockSize - offset := if_pos hspace
    have hsmall : ¬ kHeaderSize ≤ r.buffer.length := by omega
    rw [hstart, htrailer]
    unfold Reader.readPhysicalRecord
    rw [if_neg hsmall]
    by_cases heof : r.eof = true
    · right
      rw [if_pos heof]
      have hbytes : bytes.drop (kBlockSize - offset) = [] := by
        rw [← h.unread, h.ended heof, List.append_nil]
        exact List.drop_of_length_le hbuffered
      rw [hbytes]
      refine ⟨{ r with buffer := [] }, ⟨h.initialOffset, h.resyncing, h.ended heof, Nat.zero_le _,
        Nat.zero_le _, fun hfull => ?_, fun _ => h.ended heof⟩, rfl, List.suffix_refl _,
        .inr ⟨show 0 < kHeaderSize by decide, heof, rfl⟩⟩
      rw [show r.eof = false from hfull] at heof
      cases heof
    · rw [if_neg heof]
      cases hrefill : { r with buffer := [] }.refill with
      | none => exact .inl ⟨mem_failures_of_refill hrefill, rfl⟩
      | some r' =>
        right
        obtain ⟨hat, hreports, hfailures, hcase⟩ := h.refill (Bool.eq_false_iff.2 heof) hrefill
        refine ⟨r', hat, hreports, hfailures, ?_⟩
        dsimp only
        by_cases hheader : kHeaderSize ≤ r'.buffer.length
        · exact .inl ⟨hheader, if_pos hheader⟩
        · exact .inr ⟨Nat.lt_of_not_le hheader, hcase.resolve_left hheader, if_neg hheader⟩
  · right
    have hstart : start offset = offset := if_neg hspace
    have htrailer : trailer offset = 0 := if_neg hspace
    rw [hstart, htrailer, List.drop_zero]
    refine ⟨r, h, rfl, List.suffix_refl _, ?_⟩
    unfold Reader.readPhysicalRecord
    by_cases hheader : kHeaderSize ≤ r.buffer.length
    · exact .inl ⟨hheader, if_pos hheader⟩
    · have heof : r.eof = true := by
        by_contra heof
        have hfull := h.full (Bool.eq_false_iff.2 heof)
        omega
      exact .inr ⟨Nat.lt_of_not_le hheader, heof, by rw [if_neg hheader, if_pos heof]⟩

/-- A physical record that starts at the offset is read, and the reader stands behind it. -/
theorem At.read_emitted {r : Reader} {offset : ℕ} {t : RecordType} {p more : Bytes}
    (h : At r offset (emitted crc offset t p ++ more)) (ht : t ≠ .kZeroType)
    (fits : p.length ≤ avail offset) :
    (true ∈ r.file.failures ∧ (r.readPhysicalRecord crc).2.1 = kEof) ∨
      ∃ r', r.readPhysicalRecord crc = (r', typeOf t, p) ∧
        At r' (start offset + kHeaderSize + p.length) more ∧ r'.reports = r.reports ∧
        r'.file.failures <:+ r.file.failures := by
  have hspace := start_add_avail offset
  have hblock : kBlockSize = 32768 := rfl
  rcases h.readPhysicalRecord crc with hfailed | ⟨r', hat, hreports, hfailures, hcase⟩
  · exact .inl hfailed
  right
  have hunread : r'.buffer ++ r'.file.rest = header crc t p ++ p ++ more := by
    rw [hat.unread, emitted, List.append_assoc, List.append_assoc]
    exact (List.drop_left' (by simp)).trans (List.append_assoc _ _ _).symm
  have hlength := congrArg List.length hunread
  simp only [List.length_append, length_header] at hlength
  -- The whole record is in the buffer: the block ends behind it, and so does the file.
  have hbuffer : kHeaderSize + p.length ≤ r'.buffer.length := by
    cases heof : r'.eof with
    | true =>
      rw [hat.ended heof, List.length_nil] at hlength
      omega
    | false =>
      have hfull := hat.full heof
      omega
  obtain ⟨more', hmore', hmore⟩ : ∃ more', r'.buffer = header crc t p ++ p ++ more' ∧
      more' ++ r'.file.rest = more := by
    obtain ⟨more', hpre⟩ := List.prefix_of_prefix_length_le ⟨more, rfl⟩
      (hunread ▸ List.prefix_append _ _) (by simpa using hbuffer)
    refine ⟨more', hpre.symm, ?_⟩
    rw [← hpre, List.append_assoc] at hunread
    exact List.append_cancel_left hunread
  have hparse := parseHeader_emitted hat.initialOffset ht (by omega)
    (hmore'.trans (List.append_assoc _ _ _))
  have hmoreLength := congrArg List.length hmore'
  simp only [List.length_append, length_header] at hmoreLength
  refine ⟨{ r' with buffer := more' }, ?_, ⟨hat.initialOffset, hat.resyncing, hmore, by omega, ?_,
    fun hfull => ?_, hat.ended⟩, hreports, hfailures⟩
  · rcases hcase with ⟨-, hread⟩ | ⟨hsmall, -⟩
    · exact hread.trans hparse
    · omega
  · have hbuffered := hat.buffered
    show more'.length ≤ _
    omega
  · have hfull' := hat.full hfull
    show _ ≤ more'.length
    omega

/-- Where a physical record was cut off the file ends. -/
theorem At.read_cut {r : Reader} {offset : ℕ} {t : RecordType} {p bytes : Bytes}
    (h : At r offset bytes) (fits : p.length ≤ avail offset)
    (hcut : bytes <+: emitted crc offset t p) (hlt : bytes.length < (emitted crc offset t p).length) :
    (r.readPhysicalRecord crc).2.1 = kEof ∧
      (true ∉ r.file.failures → (r.readPhysicalRecord crc).1.reports = r.reports) := by
  have hspace := start_add_avail offset
  have hblock : kBlockSize = 32768 := rfl
  rcases h.readPhysicalRecord crc with ⟨hfailed, hread⟩ | ⟨r', hat, hreports, -, hcase⟩
  · exact ⟨hread, fun hsound => absurd hfailed hsound⟩
  rcases hcase with ⟨hheader, hread⟩ | ⟨-, -, hread⟩
  · have hcut' : bytes.drop (trailer offset) <+: header crc t p ++ p := by
      have hdrop := hcut.drop (trailer offset)
      rwa [emitted, List.append_assoc, List.drop_left' (by simp)] at hdrop
    have hlength : (bytes.drop (trailer offset)).length < kHeaderSize + p.length := by
      simp only [emitted, List.length_append, List.length_replicate, length_header] at hlt
      rw [List.length_drop]
      have hheader' : kHeaderSize = 7 := rfl
      omega
    have hunread := congrArg List.length hat.unread
    rw [List.length_append] at hunread
    have heof : r'.eof = true := by
      by_contra heof
      have hfull := hat.full (Bool.eq_false_iff.2 heof)
      omega
    have hbuffer : r'.buffer = bytes.drop (trailer offset) := by
      rw [← hat.unread, hat.ended heof, List.append_nil]
    obtain ⟨tail, htail⟩ := List.prefix_of_prefix_length_le ⟨p, rfl⟩ (hbuffer ▸ hcut')
      (by simpa using hheader)
    have htailLength := congrArg List.length htail
    rw [List.length_append, length_header, hbuffer] at htailLength
    have hparse := parseHeader_cut heof (by omega) (by omega) htail.symm
    rw [hread, hparse]
    exact ⟨rfl, fun _ => hreports⟩
  · rw [hread]
    exact ⟨rfl, fun _ => hreports⟩

/-! ## Records -/

/-- What has been collected of a record. -/
def collected (begin : Bool) (s : Scan) : Bytes := if begin then [] else s.scratch

theorem onPhysicalRecord_last {s : Scan} {begin : Bool} (h : s.inFragmentedRecord = !begin)
    (p : Bytes) (offset : BitVec 64) :
    ∃ s' last, s.onPhysicalRecord (typeOf (Writer.recordType begin true)) p offset =
        (s', some (collected begin s ++ p)) ∧
      s'.reader = { s.reader with lastRecordOffset := last } := by
  cases begin with
  | true =>
    refine ⟨{ s with
      reader := { s.reader with lastRecordOffset := offset }
      scratch := []
      prospectiveRecordOffset := offset }, offset, ?_, rfl⟩
    simp [Scan.onPhysicalRecord, Scan.dropPartial, Writer.recordType, collected, h]
  | false =>
    refine ⟨{ s with
      reader := { s.reader with lastRecordOffset := s.prospectiveRecordOffset }
      scratch := s.scratch ++ p }, s.prospectiveRecordOffset, ?_, rfl⟩
    simp [Scan.onPhysicalRecord, Writer.recordType, collected, h, typeOf, RecordType.byte]

theorem onPhysicalRecord_notLast {s : Scan} {begin : Bool} (h : s.inFragmentedRecord = !begin)
    (p : Bytes) (offset : BitVec 64) :
    ∃ s', s.onPhysicalRecord (typeOf (Writer.recordType begin false)) p offset = (s', none) ∧
      s'.reader = s.reader ∧ s'.scratch = collected begin s ++ p ∧
      s'.inFragmentedRecord = true := by
  cases begin with
  | true =>
    refine ⟨{ s with
      scratch := p, inFragmentedRecord := true, prospectiveRecordOffset := offset }, ?_, rfl, rfl,
      rfl⟩
    simp [Scan.onPhysicalRecord, Scan.dropPartial, Writer.recordType, h, typeOf, RecordType.byte]
  | false =>
    refine ⟨{ s with scratch := s.scratch ++ p }, ?_, rfl, rfl, h⟩
    simp [Scan.onPhysicalRecord, Writer.recordType, h, typeOf, RecordType.byte]

theorem recordType_ne (begin last : Bool) : Writer.recordType begin last ≠ .kZeroType := by
  cases begin <;> cases last <;> decide

theorem typeOf_ne_kEof (begin last : Bool) : typeOf (Writer.recordType begin last) ≠ kEof := by
  cases begin <;> cases last <;> decide

/-- One round of the loop over a physical record that was read. -/
theorem loop_of_read {s : Scan} {r' : Reader} {recordType : BitVec 32} {p : Bytes}
    (hread : s.reader.readPhysicalRecord crc = (r', recordType, p)) (htype : recordType ≠ kEof)
    (hresyncing : r'.resyncing = false) :
    ∃ offset, s.loop crc =
      match ({ s with reader := r' } : Scan).onPhysicalRecord recordType p offset with
      | (s', some record) => (s'.reader, some record)
      | (s', none) => s'.loop crc := by
  have hresync : r'.resync recordType = (r', false) := by
    unfold Reader.resync
    rw [if_neg (by simp [hresyncing])]
  refine ⟨r'.endOfBufferOffset - size r'.buffer - BitVec.ofNat 64 kHeaderSize - size p, ?_⟩
  rw [Scan.loop]
  simp only [hread, hresync, if_neg htype, Bool.false_eq_true, if_false]
  generalize Scan.onPhysicalRecord _ _ _ _ = switched
  obtain ⟨s', _ | record⟩ := switched <;> rfl

theorem loop_of_kEof {s : Scan} (h : (s.reader.readPhysicalRecord crc).2.1 = kEof) :
    s.loop crc =
      (((s.reader.readPhysicalRecord crc).1.resync kEof).1, none) := by
  rw [Scan.loop]
  simp only [h, if_true]

/-- A record that was emitted is read, behind what was collected of it before. -/
theorem loop_emits {begin : Bool} {offset offset' : ℕ} {data bytes more : Bytes}
    (hemits : Emits crc begin offset data bytes offset') {s : Scan}
    (h : At s.reader offset (bytes ++ more)) (hs : s.inFragmentedRecord = !begin) :
    (true ∈ s.reader.file.failures ∧ (s.loop crc).2 = none) ∨
      ∃ r', s.loop crc = (r', some (collected begin s ++ data)) ∧ At r' offset' more ∧
        r'.reports = s.reader.reports ∧ r'.file.failures <:+ s.reader.file.failures := by
  induction hemits generalizing s with
  | @last begin offset data fits =>
    rcases h.read_emitted (recordType_ne _ _) fits with
      ⟨hfailed, hread⟩ | ⟨r', hread, hat, hreports, hfailures⟩
    · rw [loop_of_kEof hread]
      exact .inl ⟨hfailed, rfl⟩
    · obtain ⟨offset', hloop⟩ := loop_of_read hread (typeOf_ne_kEof _ _) hat.resyncing
      obtain ⟨s', last, hs', hreader⟩ :=
        onPhysicalRecord_last (s := { s with reader := r' }) hs data offset'
      have hdone : s.loop crc = (s'.reader, some (collected begin s ++ data)) := by
        rw [hloop, hs']
        rfl
      rw [hreader] at hdone
      refine .inr ⟨_, hdone, ⟨hat.initialOffset, hat.resyncing, hat.unread, hat.le, hat.buffered,
        hat.full, hat.ended⟩, hreports, hfailures⟩
  | @cons begin offset offset' fragment data bytes fits _ ih =>
    rw [List.append_assoc] at h
    rcases h.read_emitted (recordType_ne _ _) fits with
      ⟨hfailed, hread⟩ | ⟨r', hread, hat, hreports, hfailures⟩
    · rw [loop_of_kEof hread]
      exact .inl ⟨hfailed, rfl⟩
    · obtain ⟨offset', hloop⟩ := loop_of_read hread (typeOf_ne_kEof _ _) hat.resyncing
      obtain ⟨s', hs', hreader, hscratch, hinside⟩ :=
        onPhysicalRecord_notLast (s := { s with reader := r' }) hs fragment offset'
      have hnext : s.loop crc = s'.loop crc := by rw [hloop, hs']
      rw [hnext]
      have hreader' : s'.reader = r' := hreader
      rcases ih (hreader'.symm ▸ hat) hinside with ⟨hfailed, hnone⟩ | ⟨r'', hr'', hat', hsame, hsuffix⟩
      · rw [hreader'] at hfailed
        exact .inl ⟨hfailures.subset hfailed, hnone⟩
      · right
        rw [hreader'] at hsame hsuffix
        refine ⟨r'', ?_, hat', hsame.trans hreports, hsuffix.trans hfailures⟩
        rw [hr'', ← List.append_assoc]
        exact congrArg (fun bytes => (r'', some (bytes ++ data))) hscratch

/-- A record that was cut off is none. -/
theorem loop_cut {begin : Bool} {offset offset' : ℕ} {data bytes cut : Bytes}
    (hemits : Emits crc begin offset data bytes offset') {s : Scan} (h : At s.reader offset cut)
    (hs : s.inFragmentedRecord = !begin) (hcut : cut <+: bytes) (hlt : cut.length < bytes.length) :
    (s.loop crc).2 = none ∧
      (true ∉ s.reader.file.failures → (s.loop crc).1.reports = s.reader.reports) := by
  have hresync : ∀ r : Reader, (r.resync kEof).1.reports = r.reports := by
    intro r
    unfold Reader.resync
    split_ifs <;> rfl
  induction hemits generalizing s cut with
  | @last begin offset data fits =>
    obtain ⟨hread, hreports⟩ := h.read_cut fits hcut hlt
    rw [loop_of_kEof hread, hresync]
    exact ⟨rfl, hreports⟩
  | @cons begin offset offset' fragment data bytes fits _ ih =>
    by_cases hfirst : cut.length < (emitted crc offset (Writer.recordType begin false) fragment).length
    · have hcut' := List.prefix_of_prefix_length_le hcut (List.prefix_append _ _) hfirst.le
      obtain ⟨hread, hreports⟩ := h.read_cut fits hcut' hfirst
      rw [loop_of_kEof hread, hresync]
      exact ⟨rfl, hreports⟩
    · obtain ⟨more, rfl⟩ := List.prefix_of_prefix_length_le (List.prefix_append _ _) hcut
        (Nat.le_of_not_lt hfirst)
      have hmore : more <+: bytes := (List.prefix_append_right_inj _).1 hcut
      rw [List.length_append, List.length_append, Nat.add_lt_add_iff_left] at hlt
      rcases h.read_emitted (recordType_ne _ _) fits with
        ⟨hfailed, hread⟩ | ⟨r', hread, hat, hreports, hfailures⟩
      · rw [loop_of_kEof hread]
        exact ⟨rfl, fun hsound => absurd hfailed hsound⟩
      · obtain ⟨offset', hloop⟩ := loop_of_read hread (typeOf_ne_kEof _ _) hat.resyncing
        obtain ⟨s', hs', hreader, -, hinside⟩ :=
          onPhysicalRecord_notLast (s := { s with reader := r' }) hs fragment offset'
        have hnext : s.loop crc = s'.loop crc := by rw [hloop, hs']
        rw [hnext]
        have hreader' : s'.reader = r' := hreader
        obtain ⟨hnone, hsame⟩ := ih (hreader'.symm ▸ hat) hinside hmore hlt
        rw [hreader'] at hsame
        exact ⟨hnone, fun hsound => (hsame fun hfailed => hsound (hfailures.subset hfailed)).trans
          hreports⟩

theorem At.readRecord_eq {r : Reader} {offset : ℕ} {bytes : Bytes} (h : At r offset bytes) :
    r.readRecord crc = Scan.loop crc { reader := r } := by
  unfold Reader.readRecord
  rw [h.initialOffset, if_neg (show ¬ _ < (0 : BitVec 64) from BitVec.not_lt_zero)]

/-! ## Logs -/

theorem readAll_of_none {r : Reader} (h : (r.readRecord crc).2 = none) :
    r.readAll crc = ((r.readRecord crc).1, []) := by
  rw [Reader.readAll]
  split
  · rename_i hread
    rw [hread]
  · rename_i hread
    rw [hread] at h
    cases h

theorem readAll_of_some {r r' : Reader} {record : Bytes}
    (h : r.readRecord crc = (r', some record)) :
    r.readAll crc = ((r'.readAll crc).1, record :: (r'.readAll crc).2) := by
  rw [Reader.readAll]
  split
  · rename_i hread
    rw [h] at hread
    cases hread
  · rename_i hread
    rw [h] at hread
    cases hread
    rfl

/-- Where a writer has written these records and the file is cut off somewhere behind it: the first
one is read if it is there completely, and nothing is reported; a read that fails gives none. -/
theorem readRecord_written (w : Writer) (records : List Bytes) {r : Reader} {cut : Bytes}
    (hat : At r w.blockOffset cut) (hcut : w.dest ++ cut <+: (w.addRecords crc records).dest) :
    ((r.readRecord crc).2 = none ∧ (true ∉ r.file.failures →
      (r.readRecord crc).1.reports = r.reports ∧ ∀ data later, records = data :: later →
        w.dest.length + cut.length < (w.addRecord crc data).dest.length)) ∨
    ∃ data later more r', records = data :: later ∧ r.readRecord crc = (r', some data) ∧
      At r' (w.addRecord crc data).blockOffset more ∧
      w.dest ++ cut = (w.addRecord crc data).dest ++ more ∧
      r'.reports = r.reports ∧ r'.file.failures <:+ r.file.failures := by
  rw [hat.readRecord_eq]
  cases records with
  | nil =>
    have hempty : cut = [] := by
      have hlength := hcut.length_le
      have hnil : (w.addRecords crc []).dest.length = w.dest.length := rfl
      rw [List.length_append] at hlength
      exact List.length_eq_zero_iff.1 (by omega)
    subst hempty
    have hemits : Emits crc true w.blockOffset [] _ _ := .last true (Nat.zero_le _)
    obtain ⟨hnone, hreports⟩ := loop_cut hemits (s := { reader := r }) hat rfl List.nil_prefix
      (by simp [emitted, kHeaderSize])
    exact .inl ⟨hnone, fun hsound => ⟨hreports hsound, fun _ _ h => by cases h⟩⟩
  | cons data later =>
    obtain ⟨bytes, hdest, hemits⟩ := w.addRecord_emits crc data
    have hwhole : (w.addRecord crc data).dest <+: (w.addRecords crc (data :: later)).dest :=
      (w.addRecord crc data).dest_addRecords crc later
    rw [hdest] at hwhole
    rcases Nat.lt_or_ge cut.length bytes.length with hlt | hle
    · have hpre : w.dest ++ cut <+: w.dest ++ bytes :=
        List.prefix_of_prefix_length_le hcut hwhole (by simp; omega)
      obtain ⟨hnone, hreports⟩ := loop_cut hemits (s := { reader := r }) hat rfl
        ((List.prefix_append_right_inj _).1 hpre) hlt
      refine .inl ⟨hnone, fun hsound => ⟨hreports hsound, fun data' later' h => ?_⟩⟩
      obtain ⟨rfl, -⟩ := List.cons.inj h
      rw [hdest, List.length_append]
      omega
    · have hpre : w.dest ++ bytes <+: w.dest ++ cut :=
        List.prefix_of_prefix_length_le hwhole hcut (by simp; omega)
      obtain ⟨more, rfl⟩ := (List.prefix_append_right_inj _).1 hpre
      rcases loop_emits hemits (s := { reader := r }) hat rfl with
        ⟨hfailed, hnone⟩ | ⟨r', hloop, hat', hreports, hfailures⟩
      · exact .inl ⟨hnone, fun hsound => absurd hfailed hsound⟩
      · refine .inr ⟨data, later, more, r', rfl, hloop, hat', ?_, hreports, hfailures⟩
        rw [hdest, List.append_assoc]

/-- Of the records that a writer adds the reader that stands where the writer stood reads those
that are before it completely, and it reports nothing. -/
theorem readAll_written (w : Writer) (records : List Bytes) {r : Reader} {cut : Bytes}
    (hat : At r w.blockOffset cut) (hcut : w.dest ++ cut <+: (w.addRecords crc records).dest) :
    (r.readAll crc).2 <+: records ∧
      (w.addRecords crc (r.readAll crc).2).dest.length ≤ w.dest.length + cut.length ∧
      (true ∉ r.file.failures → (r.readAll crc).1.reports = r.reports ∧
        ∀ written, written <+: records →
          (w.addRecords crc written).dest.length ≤ w.dest.length + cut.length →
          written <+: (r.readAll crc).2) := by
  induction r using Reader.readAll.induct crc generalizing w records cut with
  | case1 r r' hread =>
    rw [readAll_of_none (congrArg Prod.snd hread)]
    rcases readRecord_written w records hat hcut with
      ⟨-, hsound⟩ | ⟨data, later, more, r'', -, hread', -⟩
    · refine ⟨List.nil_prefix, Nat.le_add_right _ _, fun hfailures => ?_⟩
      obtain ⟨hreports, hshort⟩ := hsound hfailures
      refine ⟨hreports, fun written hwritten hlength => ?_⟩
      cases written with
      | nil => exact List.nil_prefix
      | cons data written =>
        -- the first record is not there completely
        obtain ⟨later, rfl⟩ := hwritten
        have hlt := hshort data _ rfl
        have hwhole : (w.addRecord crc data).dest <+: (w.addRecords crc (data :: written)).dest :=
          (w.addRecord crc data).dest_addRecords crc written
        have hle := hwhole.length_le
        omega
    · rw [hread] at hread'
      cases hread'
  | case2 r r' record hread ih =>
    rw [readAll_of_some hread]
    rcases readRecord_written w records hat hcut with
      ⟨hnone, -⟩ | ⟨data, later, more, r'', rfl, hread', hat', hdest, hreports, hfailures⟩
    · rw [hread] at hnone
      cases hnone
    · rw [hread] at hread'
      obtain ⟨rfl, hsome⟩ := Prod.mk.inj hread'
      obtain rfl := Option.some.inj hsome
      have hlength : w.dest.length + cut.length =
          (w.addRecord crc record).dest.length + more.length := by
        rw [← List.length_append, hdest, List.length_append]
      obtain ⟨hpre, hwritten, hsound⟩ := ih (w.addRecord crc record) later hat' (hdest ▸ hcut)
      rw [hlength]
      refine ⟨List.cons_prefix_cons.2 ⟨rfl, hpre⟩, hwritten, fun hnot => ?_⟩
      obtain ⟨hsame, hall⟩ := hsound fun hfailed => hnot (hfailures.subset hfailed)
      refine ⟨hsame.trans hreports, fun written hwritten' hle => ?_⟩
      cases written with
      | nil => exact List.nil_prefix
      | cons data written =>
        obtain ⟨rfl, htail⟩ := List.cons_prefix_cons.1 hwritten'
        exact List.cons_prefix_cons.2 ⟨rfl, hall written htail hle⟩

/-- Of a log that was cut off anywhere the records are read of which the last byte was written, and
unless a read fails they are all read and nothing is reported. -/
theorem readAll_take (records : List Bytes) (n : ℕ) (checksum : Bool) (failures : List Bool) :
    let file : SequentialFile := ⟨(Writer.addRecords crc {} records).dest.take n, failures⟩
    let read := (Reader.new file checksum 0).readAll crc
    read.2 <+: records ∧ ((Writer.addRecords crc {} read.2).dest.length ≤ n) ∧
      (true ∉ failures → read.1.reports = [] ∧
        ∀ written, written <+: records →
          (Writer.addRecords crc {} written).dest.length ≤ n → written <+: read.2) := by
  intro file read
  have hend : ∀ slices, (Writer.addRecords crc ⟨[], kBlockSize⟩ slices).dest =
      (Writer.addRecords crc {} slices).dest := Writer.dest_addRecords_end crc []
  let w : Writer := ⟨[], kBlockSize⟩
  have hrest : w.dest ++ file.rest <+: (w.addRecords crc records).dest := by
    rw [hend]
    exact List.take_prefix _ _
  obtain ⟨hpre, hlength, hsound⟩ := readAll_written w _ (at_new file checksum) hrest
  have hcut : file.rest.length = min n (Writer.addRecords crc {} records).dest.length :=
    List.length_take
  rw [hend, hcut] at hlength
  have hle : ([] : Bytes).length + min n (Writer.addRecords crc {} records).dest.length ≤ n := by
    rw [List.length_nil, Nat.zero_add]
    exact Nat.min_le_left _ _
  refine ⟨hpre, Nat.le_trans hlength hle, fun hfailures => ?_⟩
  obtain ⟨hreports, hall⟩ := hsound hfailures
  refine ⟨hreports, fun written hwritten hn => hall written hwritten ?_⟩
  obtain ⟨later, hlater⟩ := hwritten
  have hwhole := (Writer.dest_addRecords crc (Writer.addRecords crc {} written) later).length_le
  rw [← Writer.addRecords_append, hlater] at hwhole
  rw [hend, hcut, List.length_nil, Nat.zero_add]
  exact Nat.le_min.2 ⟨hn, hwhole⟩

variable (crc) in
/-- The reader stands behind a record in a log that may be cut off. -/
def Reader.InLog (r : Reader) : Prop :=
  ∃ (w : Writer) (records : List Bytes) (cut : Bytes), At r w.blockOffset cut ∧
    w.dest ++ cut <+: (w.addRecords crc records).dest

theorem inLog_new (records : List Bytes) (n : ℕ) (checksum : Bool) (failures : List Bool) :
    (Reader.new ⟨(Writer.addRecords crc {} records).dest.take n, failures⟩ checksum 0).InLog crc := by
  refine ⟨⟨[], kBlockSize⟩, records, _, at_new _ checksum, ?_⟩
  rw [Writer.dest_addRecords_end crc [] records]
  exact List.take_prefix _ _

/-- A record that is read is read without a report, also if a read fails later. -/
theorem Reader.InLog.readRecord {r r' : Reader} {record : Bytes} (h : r.InLog crc)
    (hread : r.readRecord crc = (r', some record)) :
    r'.InLog crc ∧ r'.reports = r.reports ∧ r'.file.failures <:+ r.file.failures := by
  obtain ⟨w, records, cut, hat, hcut⟩ := h
  rcases readRecord_written w records hat hcut with
    ⟨hnone, -⟩ | ⟨data, later, more, r'', rfl, hread', hat', hdest, hreports, hfailures⟩
  · rw [hread] at hnone
    cases hnone
  · rw [hread] at hread'
    obtain ⟨rfl, -⟩ := Prod.mk.inj hread'
    exact ⟨⟨w.addRecord crc data, later, more, hat', hdest ▸ hcut⟩, hreports, hfailures⟩

theorem Reader.InLog.reports_of_none {r : Reader} (h : r.InLog crc)
    (hnone : (r.readRecord crc).2 = none) (hfailures : true ∉ r.file.failures) :
    (r.readRecord crc).1.reports = r.reports := by
  obtain ⟨w, records, cut, hat, hcut⟩ := h
  rcases readRecord_written w records hat hcut with
    ⟨-, hsound⟩ | ⟨data, later, more, r', -, hread, -⟩
  · exact (hsound hfailures).1
  · rw [hread] at hnone
    cases hnone

/-- A log that was written in any number of sessions and cut off anywhere: the records that are
read are those of which the last byte was written, and unless a read fails they are all read and
nothing is reported. -/
theorem log_recovered (crc : Crc32c) (slices : List (List Bytes)) (n : ℕ) (checksum : Bool)
    (failures : List Bool) :
    let file : SequentialFile := ⟨(Writer.sessions crc [] slices).take n, failures⟩
    let read := (Reader.new file checksum 0).readAll crc
    read.2 <+: slices.flatten ∧ ((Writer.addRecords crc {} read.2).dest.length ≤ n) ∧
      (true ∉ failures → read.1.reports = [] ∧
        ∀ written, written <+: slices.flatten →
          (Writer.addRecords crc {} written).dest.length ≤ n → written <+: read.2) := by
  have hnew : Writer.Aligned {} := ⟨Nat.zero_le _, rfl⟩
  have hfile : Writer.sessions crc [] slices = (Writer.addRecords crc {} slices.flatten).dest :=
    hnew.sessions crc slices
  rw [hfile]
  exact readAll_take slices.flatten n checksum failures

end PracticeSwift.LevelDb.Log

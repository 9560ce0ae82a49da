import DcapVerify.Types.Quote

/-!
# The report body's layout

A report body is 384 bytes at fixed offsets. `SgxReportBody.readFields` is exact
for that layout, and 384 bytes are enough for every one of its reads, so `parse`
succeeds on precisely the inputs of that length.
-/

namespace DcapVerify.SgxReportBody

open ByteReader

/-- `raw` is an encoding of `b`: its fields at their offsets, anything in the reserved gaps. -/
def Encodes (b : SgxReportBody) (raw : Bytes) : Prop :=
  ∃ r1 r2 r3 r4 : Bytes, r1.length = 12 ∧ r2.length = 32 ∧ r3.length = 32 ∧ r4.length = 42 ∧
    raw = b.cpuSvn.toList ++ (b.miscSelect.toList ++ (r1 ++ (b.isvExtProdId.toList ++
      (b.attributes.toList ++ (b.mrenclave.toList ++ (r2 ++ (b.mrsigner.toList ++ (r3 ++
      (b.configId.toList ++ (le16 b.isvProdId ++ (le16 b.isvSvn ++ (le16 b.configSvn ++ (r4 ++
      (b.isvFamilyId.toList ++ b.sgxReportDataBytes.toList))))))))))))))

theorem reads_fields : Wire.Reads readFields Encodes := by
  refine Wire.Reads.congr
    ((reads_array 16 _).field fun cpu _ => (reads_array 4 _).field fun misc _ =>
    (reads_take 12 _).field fun r1 _ => (reads_array 16 _).field fun ext _ =>
    (reads_array 16 _).field fun attr _ => (reads_array 32 _).field fun mr _ =>
    (reads_take 32 _).field fun r2 _ => (reads_array 32 _).field fun sgn _ =>
    (reads_take 32 _).field fun r3 _ => (reads_array 64 _).field fun cfg _ =>
    (reads_u16Le _).field fun prod _ => (reads_u16Le _).field fun svn _ =>
    (reads_u16Le _).field fun csvn _ => (reads_take 42 _).field fun r4 _ =>
    (reads_array 16 _).field fun fam _ => (reads_array 64 _).field fun data _ =>
    Wire.Reads.pure _) ?_
  intro b raw
  refine ⟨fun h => ?_, fun h => ?_⟩
  · obtain ⟨cpu, _, -, ⟨misc, _, -, ⟨r1, _, h1, ⟨ext, _, -, ⟨attr, _, -, ⟨mr, _, -, ⟨r2, _, h2,
      ⟨sgn, _, -, ⟨r3, _, h3, ⟨cfg, _, -, ⟨prod, _, -, ⟨svn, _, -, ⟨csvn, _, -, ⟨r4, _, h4,
      ⟨fam, _, -, ⟨data, _, -, ⟨rfl, rfl⟩, rfl⟩, rfl⟩, rfl⟩, rfl⟩, rfl⟩, rfl⟩, rfl⟩, rfl⟩, rfl⟩,
      rfl⟩, rfl⟩, rfl⟩, rfl⟩, rfl⟩, rfl⟩, rfl⟩ := h
    exact ⟨r1, r2, r3, r4, h1, h2, h3, h4, by rw [List.append_nil]⟩
  · obtain ⟨r1, r2, r3, r4, h1, h2, h3, h4, rfl⟩ := h
    exact ⟨_, _, ⟨⟩, ⟨_, _, ⟨⟩, ⟨r1, _, h1, ⟨_, _, ⟨⟩, ⟨_, _, ⟨⟩, ⟨_, _, ⟨⟩, ⟨r2, _, h2, ⟨_, _, ⟨⟩,
      ⟨r3, _, h3, ⟨_, _, ⟨⟩, ⟨_, _, ⟨⟩, ⟨_, _, ⟨⟩, ⟨_, _, ⟨⟩, ⟨r4, _, h4, ⟨_, _, ⟨⟩,
      ⟨_, _, ⟨⟩, ⟨rfl, rfl⟩, (List.append_nil _).symm⟩, rfl⟩, rfl⟩, rfl⟩, rfl⟩, rfl⟩, rfl⟩, rfl⟩,
      rfl⟩, rfl⟩, rfl⟩, rfl⟩, rfl⟩, rfl⟩, rfl⟩, rfl⟩

theorem Encodes.length {b : SgxReportBody} {raw : Bytes} (h : Encodes b raw) :
    raw.length = reportBodyLen := by
  obtain ⟨r1, r2, r3, r4, h1, h2, h3, h4, rfl⟩ := h
  simp [h1, h2, h3, h4, reportBodyLen]

/-- 384 bytes are what the field reads consume, whatever the bytes. -/
theorem advances_fields : Wire.Advances readFields reportBodyLen :=
  (advances_array 16 _).bind fun _ => (advances_array 4 _).bind fun _ =>
    (advances_take 12 _).bind fun _ => (advances_array 16 _).bind fun _ =>
    (advances_array 16 _).bind fun _ => (advances_array 32 _).bind fun _ =>
    (advances_take 32 _).bind fun _ => (advances_array 32 _).bind fun _ =>
    (advances_take 32 _).bind fun _ => (advances_array 64 _).bind fun _ =>
    (advances_u16Le _).bind fun _ => (advances_u16Le _).bind fun _ =>
    (advances_u16Le _).bind fun _ => (advances_take 42 _).bind fun _ =>
    (advances_array 16 _).bind fun _ => (advances_array 64 _).bind fun _ => Wire.Advances.pure _

/-- Past the length check, `parse` is its field reads, and they use up the input. -/
theorem readFields_of_length {raw : Bytes} (h : raw.length = reportBodyLen) :
    ∃ b, readFields raw = .ok (b, []) ∧ parse raw = .ok b := by
  obtain ⟨b, hb⟩ := advances_fields raw h.ge
  rw [← h, List.drop_length] at hb
  refine ⟨b, hb, ?_⟩
  rw [parse, Checks.seq_eq_ok, rejectIf_eq_ok, hb]
  exact ⟨fun hne => hne h, rfl⟩

/-- **`parse` accepts exactly the encodings.** -/
theorem parse_eq_ok {raw : Bytes} {b : SgxReportBody} : parse raw = .ok b ↔ Encodes b raw := by
  refine ⟨fun h => ?_, fun h => ?_⟩
  · have hlen : raw.length = reportBodyLen := by
      rw [parse, Checks.seq_eq_ok, rejectIf_eq_ok] at h
      exact Decidable.not_not.mp h.1
    obtain ⟨b', hb, hp⟩ := readFields_of_length hlen
    rw [hp] at h
    cases h
    exact reads_fields.whole.mp hb
  · obtain ⟨b', hb, hp⟩ := readFields_of_length h.length
    rw [reads_fields.whole.mpr h] at hb
    cases hb
    exact hp

theorem parse_of_length {raw : Bytes} (h : raw.length = reportBodyLen) :
    ∃ b, parse raw = .ok b :=
  (readFields_of_length h).imp fun _ hb => hb.2

/-- The length check is the only way to fail. -/
theorem parse_rejectsIn (raw : Bytes) : RejectsIn [.quoteParse] (parse raw) := by
  by_cases h : raw.length = reportBodyLen
  · obtain ⟨b, hb⟩ := parse_of_length h
    rw [hb]
    exact RejectsIn.ok b
  · rw [parse, rejectIf, if_pos h]
    exact RejectsIn.reject (by simp)

/-! ## Where the fields lie -/

theorem Encodes.mrenclave_slice {b : SgxReportBody} {raw : Bytes} (h : Encodes b raw) :
    Octets.slice 64 32 raw = b.mrenclave.toList := by
  obtain ⟨r1, r2, r3, r4, h1, h2, h3, h4, rfl⟩ := h
  simp [Octets.slice_append_of_le, Octets.slice_append_self, h1]

theorem Encodes.reportData_slice {b : SgxReportBody} {raw : Bytes} (h : Encodes b raw) :
    Octets.slice 320 64 raw = b.sgxReportDataBytes.toList := by
  obtain ⟨r1, r2, r3, r4, h1, h2, h3, h4, rfl⟩ := h
  simp [Octets.slice_append_of_le, Octets.slice_self, h1, h2, h3, h4]

end DcapVerify.SgxReportBody

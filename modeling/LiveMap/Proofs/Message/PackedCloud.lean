import LiveMap.Message.PointCloud
import LiveMap.Proofs.Numeric.Binary32

/-!
# Clouds through their packed form

Points are packed into a buffer of records and read from it again. The way there and back rounds
every coordinate once, and the way back and there returns the buffer.

## Main statements

* `PointCloud.points_pack`: reading a packed list of points rounds each of them.
* `flatMap_record_pointsOfRecords`: packing what was read returns the records.
* `PointCloud.packing_laws`: both ways, and what is not packed at all.
-/

namespace LiveMap

/-! ## Entries and bytes -/

theorem wordBytes_wordOfBytes (a b c d : UInt8) :
    wordBytes (wordOfBytes a b c d) = [a, b, c, d] := by
  have ha := a.toNat_lt
  have hb := b.toNat_lt
  have hc := c.toNat_lt
  have hd := d.toNat_lt
  have hword : (wordOfBytes a b c d).toNat =
      a.toNat + b.toNat <<< 8 + c.toNat <<< 16 + d.toNat <<< 24 := by
    rw [wordOfBytes, UInt32.toNat_ofNat']
    omega
  simp only [wordBytes, hword, List.cons.injEq, ← UInt8.toNat_inj, UInt8.toNat_ofNat', and_true]
  omega

theorem flatMap_wordBytes_wordsOfBytes :
    ∀ {data : List UInt8}, data.length % 4 = 0 → (wordsOfBytes data).flatMap wordBytes = data
  | [], _ => rfl
  | [_], h | [_, _], h | [_, _, _], h => by simp at h
  | a :: b :: c :: d :: rest, h => by
    have hrest : rest.length % 4 = 0 := by
      simp only [List.length_cons] at h
      omega
    rw [wordsOfBytes, List.flatMap_cons, wordBytes_wordOfBytes,
      flatMap_wordBytes_wordsOfBytes hrest]
    rfl

theorem length_wordsOfBytes : ∀ data : List UInt8, (wordsOfBytes data).length = data.length / 4
  | [] | [_] | [_, _] | [_, _, _] => by simp [wordsOfBytes]
  | a :: b :: c :: d :: rest => by
    simp only [wordsOfBytes, List.length_cons, length_wordsOfBytes rest]
    omega

/-! ## Records -/

section Records

variable {K : Type} [Scalar K]

/-- The records spell out the packed coordinates one after the other. -/
theorem flatMap_record (ps : List (Vec3 K)) :
    ps.flatMap Vec3.record =
      ((ps.flatMap Vec3.toList).map Scalar.toBinary32).flatMap wordBytes := by
  rw [List.flatMap_map, List.flatMap_assoc]
  rfl

theorem flatMap_toList_map_single (ps : List (Vec3 K)) :
    (ps.map Vec3.single).flatMap Vec3.toList = (ps.flatMap Vec3.toList).map Scalar.single := by
  rw [List.flatMap_map, List.map_flatMap]
  rfl

theorem pointsOfRecords_flatMap_record (ps : List (Vec3 K)) :
    pointsOfRecords (ps.flatMap Vec3.record) = ps.map Vec3.single := by
  have hentries : ((ps.flatMap Vec3.toList).map Scalar.toBinary32).map Scalar.ofBinary32 =
      (ps.map Vec3.single).flatMap Vec3.toList := by
    rw [flatMap_toList_map_single, List.map_map]
    rfl
  rw [pointsOfRecords, flatMap_record, wordsOfBytes_flatMap, hentries,
    Vec3.ofEntries_flatMap_toList]

theorem PointCloud.points_of_le {m : PointCloud K} (hwidth : 0 ≤ m.width)
    (hlength : recordLength * m.width.toNat ≤ m.data.length) :
    m.points = .ok (pointsOfRecords (m.data.take (recordLength * m.width.toNat))) := by
  unfold points
  by_cases hempty : m.data.isEmpty
  · have hnil : m.data = [] := List.isEmpty_iff.mp hempty
    have hzero : m.width = 0 := by
      rw [hnil, List.length_nil, recordLength] at hlength
      omega
    rw [if_pos hempty, if_pos hzero, hnil, List.take_nil]
    rfl
  · rw [if_neg hempty, if_neg (not_lt.mpr hwidth), if_neg (not_lt.mpr hlength)]

theorem PointCloud.points_pack (frame : String) (stamp : K) (ps : List (Vec3 K)) :
    (pack frame stamp ps).points = .ok (ps.map Vec3.single) := by
  have hlength : recordLength * (pack frame stamp ps).width.toNat =
      (pack frame stamp ps).data.length := (length_flatMap_record ps).symm
  have hwidth : 0 ≤ (pack frame stamp ps).width := Int.natCast_nonneg _
  rw [points_of_le hwidth hlength.le, hlength, List.take_length]
  exact congrArg Except.ok (pointsOfRecords_flatMap_record ps)

theorem PointCloud.ofArray_ofPoints (frame : String) (stamp : K) (ps : List (Vec3 K)) :
    ofArray frame stamp (.ofPoints ps) = .ok (pack frame stamp ps) := by
  rw [ofArray, NumArray.cloudPoints_ofPoints]
  rfl

theorem PointCloud.length_data_pack (frame : String) (stamp : K) (ps : List (Vec3 K)) :
    ((pack frame stamp ps).data.length : Int) =
      (pack frame stamp ps).width * (pack frame stamp ps).pointStep := by
  have hlength : (pack frame stamp ps).data.length = recordLength * ps.length :=
    length_flatMap_record ps
  rw [hlength, Nat.cast_mul, mul_comm]
  rfl

/-- Packing what was read returns the records, if their words survive on their own. -/
theorem flatMap_record_pointsOfRecords {data : List UInt8}
    (hlength : data.length % recordLength = 0)
    (hwords : ∀ w ∈ wordsOfBytes data, Scalar.toBinary32 (Scalar.ofBinary32 w : K) = w) :
    (pointsOfRecords data : List (Vec3 K)).flatMap Vec3.record = data := by
  rw [recordLength] at hlength
  have hthree : ((wordsOfBytes data).map (Scalar.ofBinary32 : UInt32 → K)).length % 3 = 0 := by
    rw [List.length_map, length_wordsOfBytes]
    omega
  have hsame : ((wordsOfBytes data).map (Scalar.ofBinary32 : UInt32 → K)).map Scalar.toBinary32 =
      wordsOfBytes data := by
    rw [List.map_map]
    exact (List.map_congr_left hwords).trans (List.map_id _)
  rw [flatMap_record, pointsOfRecords, Vec3.flatMap_toList_ofEntries hthree, hsame,
    flatMap_wordBytes_wordsOfBytes (by omega)]

end Records

namespace NumArray

variable {K : Type} {a : NumArray K}

theorem cloudPoints_of_ne (hsize : a.entries ≠ []) (h : ∀ n, a.shape ≠ [n, 3]) :
    a.cloudPoints = .error (.pointsShape a.shape) := by
  have hpoints : a.points? = none := by
    unfold points?
    split
    · exact absurd ‹_› (h _)
    · rfl
  rw [cloudPoints, isEmpty, if_neg (mt List.isEmpty_iff.mp hsize), hpoints]

end NumArray

namespace PointCloud

/-! ## There and back -/

theorem record_single (p : Vec3 Float) : p.single.record = p.record := by
  simp only [Vec3.record, Vec3.single, Vec3.toList, List.flatMap_cons, List.flatMap_nil,
    Binary32.toBinary32_single]

/-- What was read packs into the same buffer. -/
theorem flatMap_record_map_single (ps : List (Vec3 Float)) :
    (ps.map Vec3.single).flatMap Vec3.record = ps.flatMap Vec3.record := by
  rw [List.flatMap_map]
  exact congrArg List.flatten (List.map_congr_left fun p _ => record_single p)

theorem roundsTo_entries_map_single (ps : List (Vec3 Float)) :
    List.Forall₂ Binary32.RoundsTo (NumArray.ofPoints ps).entries
      (NumArray.ofPoints (ps.map Vec3.single)).entries := by
  simp only [NumArray.ofPoints, flatMap_toList_map_single, List.forall₂_map_right_iff,
    List.forall₂_same]
  exact fun x _ => Binary32.roundsTo_single x

/-- An array with three columns is packed and read entry by entry, every one rounded, and what was
read packs into the same buffer. The first records of a buffer that holds no undefined words
survive being read and packed. An array that has entries and not three columns is rejected. -/
theorem packing_laws :
    (∀ (frame : String) (stamp : Float) (a : NumArray Float) (n : Nat), a.shape = [n, 3] →
      ∃ m ps, ofArray frame stamp a = .ok m ∧ m.header = ⟨stamp, frame⟩ ∧ m.width = n ∧
        (m.data.length : Int) = m.width * m.pointStep ∧
        m.points = .ok ps ∧ (NumArray.ofPoints ps).shape = [n, 3] ∧
        List.Forall₂ Binary32.RoundsTo a.entries (NumArray.ofPoints ps).entries ∧
        ∀ (frame' : String) (stamp' : Float),
          (ofArray frame' stamp' (.ofPoints ps)).map data = .ok m.data) ∧
    (∀ m : PointCloud Float, 0 ≤ m.width → recordLength * m.width.toNat ≤ m.data.length →
      (∀ w ∈ wordsOfBytes (m.data.take (recordLength * m.width.toNat)),
        ¬ Binary32.IsUndefined w) →
      ∃ ps, m.points = .ok ps ∧ ∀ (frame : String) (stamp : Float),
        (ofArray frame stamp (.ofPoints ps)).map data =
          .ok (m.data.take (recordLength * m.width.toNat))) ∧
    ∀ (frame : String) (stamp : Float) (a : NumArray Float), a.entries ≠ [] →
      (∀ n, a.shape ≠ [n, 3]) → ofArray frame stamp a = .error (.pointsShape a.shape) := by
  refine ⟨fun frame stamp a n h => ?_, fun m hwidth hlength hwords => ?_,
    fun frame stamp a hsize h => ?_⟩
  · obtain ⟨ps, rfl, rfl⟩ := NumArray.exists_eq_ofPoints h
    refine ⟨pack frame stamp ps, ps.map Vec3.single, ofArray_ofPoints _ _ _, rfl, rfl,
      length_data_pack _ _ _, points_pack _ _ _, ?_, roundsTo_entries_map_single ps,
      fun frame' stamp' => ?_⟩
    · simp only [NumArray.ofPoints, List.length_map]
    · rw [ofArray_ofPoints]
      exact congrArg Except.ok (flatMap_record_map_single ps)
  · refine ⟨_, points_of_le hwidth hlength, fun frame stamp => ?_⟩
    have htake : (m.data.take (recordLength * m.width.toNat)).length % recordLength = 0 := by
      rw [List.length_take_of_le hlength, Nat.mul_mod_right]
    rw [ofArray_ofPoints]
    exact congrArg Except.ok (flatMap_record_pointsOfRecords htake fun w hw =>
      Binary32.toBinary32_ofBinary32 (hwords w hw))
  · rw [ofArray, NumArray.cloudPoints_of_ne hsize h]
    rfl

/-- Half a step past the largest finite number, half of the least positive one, and the number that
comes right before the first of them, with the other sign. -/
def extremePoint : Vec3 Float :=
  ⟨.ofBits 0x47EFFFFFF0000000, .ofBits 0x3690000000000000, .ofBits 0xC7EFFFFFEFFFFFFF⟩

/-- A record of two zeros of either sign and a least number, and one byte of the next one. -/
def cutBuffer : PointCloud Float :=
  ⟨⟨0, "map"⟩, 1, recordLength, [0, 0, 0, 0, 0, 0, 0, 128, 1, 0, 0, 0, 9]⟩

theorem packing_laws_extremePoint :
    (∃ m ps, ofArray "map" 0 (.ofPoints [extremePoint]) = .ok m ∧ m.points = .ok ps ∧
      m.data = [0, 0, 128, 127, 0, 0, 0, 0, 255, 255, 127, 255] ∧
      List.Forall₂ Binary32.RoundsTo extremePoint.toList (NumArray.ofPoints ps).entries) ∧
    (∃ ps, cutBuffer.points = .ok ps ∧
      (ofArray "map" 0 (.ofPoints ps)).map data = .ok [0, 0, 0, 0, 0, 0, 0, 128, 1, 0, 0, 0]) ∧
    ofArray "map" 0 (.ofVec3 extremePoint) = .error (.pointsShape [3]) := by
  obtain ⟨hrounds, hbuffer, hrejected⟩ := packing_laws
  refine ⟨?_, ?_, hrejected "map" 0 (.ofVec3 extremePoint) (List.cons_ne_nil _ _) ?_⟩
  · obtain ⟨m, ps, hpacked, -, -, -, hpoints, -, hentries, -⟩ :=
      hrounds "map" 0 (.ofPoints [extremePoint]) 1 rfl
    have hdata : (ofArray "map" 0 (.ofPoints [extremePoint])).map data =
        .ok [0, 0, 128, 127, 0, 0, 0, 0, 255, 255, 127, 255] := by decide +kernel
    rw [hpacked] at hdata
    exact ⟨m, ps, hpacked, hpoints, Except.ok.inj hdata, hentries⟩
  · have hwords : wordsOfBytes (cutBuffer.data.take (recordLength * cutBuffer.width.toNat)) =
        [0, 0x80000000, 1] := rfl
    obtain ⟨ps, hpoints, hsame⟩ := hbuffer cutBuffer (by decide) (by decide) (by
      rw [hwords, List.forall_mem_cons, List.forall_mem_cons, List.forall_mem_singleton]
      decide)
    exact ⟨ps, hpoints, hsame "map" 0⟩
  · intro n h
    cases h

end PointCloud

end LiveMap

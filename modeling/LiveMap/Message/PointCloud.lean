import LiveMap.Message.Header

/-!
# Packed point clouds

A cloud travels as a buffer of records, three little-endian binary32 coordinates each.

## Main definitions

* `NumArray.cloudPoints`: the points of a cloud given as an array.
* `PointCloud.pack`, `PointCloud.ofArray`: from points to a message.
* `PointCloud.points`: the records that a message announces.
-/

namespace LiveMap

/-- The points of a cloud given as an array. One without entries has no points, whatever its
shape. -/
def NumArray.cloudPoints {K : Type} (a : NumArray K) : Except PoseError (List (Vec3 K)) :=
  if a.isEmpty then .ok []
  else
    match a.points? with
    | some ps => .ok ps
    | none => .error (.pointsShape a.shape)

@[simp] theorem NumArray.cloudPoints_ofPoints {K : Type} (ps : List (Vec3 K)) :
    (NumArray.ofPoints ps).cloudPoints = .ok ps := by
  cases ps with
  | nil => rfl
  | cons p ps => simp [cloudPoints, isEmpty, ofPoints, Vec3.toList, points?, Vec3.ofEntries,
      Vec3.ofEntries_flatMap_toList]

/-! ## Words and records -/

/-- The four bytes of a word, the lowest first. -/
def wordBytes (w : UInt32) : List UInt8 :=
  let n := w.toNat
  [UInt8.ofNat n, UInt8.ofNat (n >>> 8), UInt8.ofNat (n >>> 16), UInt8.ofNat (n >>> 24)]

/-- The word of four bytes, the lowest first. -/
def wordOfBytes (a b c d : UInt8) : UInt32 :=
  UInt32.ofNat (a.toNat + b.toNat <<< 8 + c.toNat <<< 16 + d.toNat <<< 24)

/-- The words that bytes spell out, four bytes each. -/
def wordsOfBytes : List UInt8 → List UInt32
  | a :: b :: c :: d :: rest => wordOfBytes a b c d :: wordsOfBytes rest
  | _ => []

@[simp] theorem length_wordBytes (w : UInt32) : (wordBytes w).length = 4 := rfl

theorem wordOfBytes_digits (w : UInt32) :
    wordOfBytes (UInt8.ofNat w.toNat) (UInt8.ofNat (w.toNat >>> 8))
      (UInt8.ofNat (w.toNat >>> 16)) (UInt8.ofNat (w.toNat >>> 24)) = w := by
  have hw := w.toNat_lt
  apply UInt32.toNat_inj.mp
  simp only [wordOfBytes, UInt8.toNat_ofNat', UInt32.toNat_ofNat']
  omega

theorem wordsOfBytes_flatMap : ∀ ws : List UInt32, wordsOfBytes (ws.flatMap wordBytes) = ws
  | [] => rfl
  | w :: ws => by
    rw [List.flatMap_cons, wordBytes]
    simp only [List.cons_append, List.nil_append, wordsOfBytes]
    rw [wordOfBytes_digits, wordsOfBytes_flatMap ws]

/-- The bytes of one record. -/
def recordLength : Nat := 12

variable {K : Type} [Scalar K]

/-- The record of a point, every coordinate rounded to binary32. -/
def Vec3.record (p : Vec3 K) : List UInt8 :=
  p.toList.flatMap fun x => wordBytes (Scalar.toBinary32 x)

@[simp] theorem Vec3.length_record (p : Vec3 K) : p.record.length = recordLength := by
  simp [record, toList, recordLength]

/-- The point with every coordinate rounded to binary32. -/
def Vec3.single (p : Vec3 K) : Vec3 K :=
  ⟨Scalar.single p.x, Scalar.single p.y, Scalar.single p.z⟩

/-- The points of a buffer of records. -/
def pointsOfRecords (data : List UInt8) : List (Vec3 K) :=
  Vec3.ofEntries ((wordsOfBytes data).map Scalar.ofBinary32)

/-! ## The message -/

/-- A cloud as it travels: how many records it announces, how long each is said to be, and the
records themselves. -/
structure PointCloud (K : Type) where
  header : Header K
  width : Int
  pointStep : Int := recordLength
  data : List UInt8 := []
  deriving DecidableEq

/-- Why a buffer does not hold the records that its message announces. -/
inductive CloudError where
  | emptyBuffer
  | partialRecord (bytes : Nat)
  | shortBuffer (bytes : Nat) (records : Nat)
  deriving DecidableEq, Repr

def CloudError.message : CloudError → String
  | .emptyBuffer => "Point buffer is empty"
  | .partialRecord bytes => "Point buffer of " ++ toString bytes ++ " bytes ends inside a record"
  | .shortBuffer bytes records =>
    "Point buffer of " ++ toString bytes ++ " bytes is too short for " ++ toString records
      ++ " records"

namespace PointCloud

/-- The message of a list of points. -/
def pack (frame : String) (stamp : K) (ps : List (Vec3 K)) : PointCloud K where
  header := ⟨stamp, frame⟩
  width := ps.length
  data := ps.flatMap Vec3.record

/-- The message of an array of points. -/
def ofArray (frame : String) (stamp : K) (points : NumArray K) : Except PoseError (PointCloud K) :=
  points.cloudPoints.map (pack frame stamp)

/-- The announced records as points. A negative width announces as many as there are. -/
def points (m : PointCloud K) : Except CloudError (List (Vec3 K)) :=
  if m.data.isEmpty then if m.width = 0 then .ok [] else .error .emptyBuffer
  else if m.width < 0 then
    if m.data.length % recordLength = 0 then .ok (pointsOfRecords m.data)
    else .error (.partialRecord m.data.length)
  else if m.data.length < recordLength * m.width.toNat then
    .error (.shortBuffer m.data.length m.width.toNat)
  else .ok (pointsOfRecords (m.data.take (recordLength * m.width.toNat)))

@[simp] theorem width_pack (frame : String) (stamp : K) (ps : List (Vec3 K)) :
    (pack frame stamp ps).width = ps.length := rfl

theorem length_flatMap_record : ∀ ps : List (Vec3 K),
    (ps.flatMap Vec3.record).length = recordLength * ps.length
  | [] => rfl
  | p :: ps => by
    rw [List.flatMap_cons, List.length_append, Vec3.length_record, length_flatMap_record ps,
      List.length_cons]
    simp only [recordLength]
    omega

end PointCloud

end LiveMap

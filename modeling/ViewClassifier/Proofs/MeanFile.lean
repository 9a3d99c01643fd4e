import ViewClassifier.MeanFile
import ViewClassifier.Proofs.Npy.Heads
import ViewClassifier.Proofs.Npy.Payloads

/-!
# Mean files in every encoding

A mean does not depend on how its tensor is stored: on the version and the spelling of the header, on
the size of the words or on the order of their bytes. With less than the payload, or with more, there
is no mean at all.
-/

set_option autoImplicit false

namespace ViewClassifier

open Files (Bytes Tree)

namespace Npy

variable {t : Tensor} {e : Encoding} {head payload : Bytes}

/-- What is behind the head decides: its length has to be what the shape and the encoding ask for. -/
theorem decode_of_head (addressable : Addressable t.shape) (isHead : Head (headerOf e t.shape) head)
    (data : Bytes) :
    decode (head ++ data) =
      if data.length < positions t.shape * e.width then .error .missingData
      else if positions t.shape * e.width < data.length then
        .error (.extraBytes (data.length - positions t.shape * e.width))
      else .ok ((headerOf e t.shape).tensor (e.numbers (positions t.shape) data).toArray) := by
  have small : ∀ n ∈ t.shape, n < UInt64.size :=
    fun _ member => (addressable.axis_lt member).trans (by decide)
  have count : elementCount? (headerOf e t.shape).shape = some (positions t.shape) :=
    elementCount?_of_addressable addressable
  have encoding : Encoding.ofDescriptor? (headerOf e t.shape).descriptor = some e :=
    e.ofDescriptor?_descriptor
  rw [decode, isHead.read small data]
  simp only [ok_bind, count, encoding]
  split <;> rfl

theorem tensor_headerOf (e : Encoding) (t : Tensor) : (headerOf e t.shape).tensor t.data = t := by
  obtain ⟨shape, data, size⟩ := t
  simp only [Header.tensor, headerOf, Tensor.mk.injEq, true_and]
  apply Array.ext
  · simp [size]
  · intro i _ inside
    simp [Array.getD_eq_getD_getElem?, inside]

/-- The length of a payload is what the shape and the encoding ask for. -/
theorem length_payload (holds : e.Payload t.data.toList payload) :
    payload.length = positions t.shape * e.width := by
  rw [holds.length_eq, Array.length_toList, t.size_data]

theorem decode_stored (addressable : Addressable t.shape) (isHead : Head (headerOf e t.shape) head)
    (holds : e.Payload t.data.toList payload) : decode (head ++ payload) = .ok t := by
  have length := length_payload holds
  have numbers : e.numbers (positions t.shape) payload = t.data.toList := by
    rw [← t.size_data, ← Array.length_toList]
    exact holds.numbers_eq
  rw [decode_of_head addressable isHead, if_neg (by omega), if_neg (by omega), numbers,
    Array.toArray_toList, tensor_headerOf]

theorem decode_cut (addressable : Addressable t.shape) (isHead : Head (headerOf e t.shape) head)
    (holds : e.Payload t.data.toList payload) {kept : Bytes} (less : kept.length < payload.length) :
    decode (head ++ kept) = .error .missingData := by
  rw [decode_of_head addressable isHead, if_pos (length_payload holds ▸ less)]

theorem decode_extended (addressable : Addressable t.shape)
    (isHead : Head (headerOf e t.shape) head) (holds : e.Payload t.data.toList payload)
    {extra : Bytes} (some : extra ≠ []) :
    decode (head ++ (payload ++ extra)) = .error (.extraBytes extra.length) := by
  have length := length_payload holds
  have positive := List.length_pos_of_ne_nil some
  rw [decode_of_head addressable isHead, List.length_append, if_neg (by omega), if_pos (by omega),
    length, Nat.add_sub_cancel_left]

end Npy

open Npy (Encoding Head headerOf)

theorem loadMean_of_read {tree : Tree} {path : String} {content : Bytes}
    (read : tree.read path = .ok content) :
    loadMean tree path =
      match Npy.decode content with
      | .ok raw => channelMean raw
      | .error fault => .error (.npy fault) := by
  rw [loadMean, requireFile, read]
  rfl

/-- However a tensor is stored, its mean is the one of the tensor. Every file with another length
behind the head is refused. -/
theorem loadMean_stored {t : Tensor} {e : Encoding} {head payload : Bytes}
    (addressable : Addressable t.shape) (isHead : Head (headerOf e t.shape) head)
    (holds : e.Payload t.data.toList payload) (tree : Tree) (path : String) :
    (tree.read path = .ok (head ++ payload) → loadMean tree path = channelMean t) ∧
      (∀ kept lost, payload = kept ++ lost → lost ≠ [] → tree.read path = .ok (head ++ kept) →
        loadMean tree path = .error (.npy .missingData)) ∧
      ∀ extra ≠ [], tree.read path = .ok (head ++ (payload ++ extra)) →
        loadMean tree path = .error (.npy (.extraBytes extra.length)) := by
  refine ⟨fun read => ?_, fun kept lost cut some read => ?_, fun extra some read => ?_⟩
  · rw [loadMean_of_read read, Npy.decode_stored addressable isHead holds]
  · have positive := List.length_pos_of_ne_nil some
    have less : kept.length < payload.length := by
      rw [cut, List.length_append]
      omega
    rw [loadMean_of_read read, Npy.decode_cut addressable isHead holds less]
  · rw [loadMean_of_read read, Npy.decode_extended addressable isHead holds some]

/-- A mean image with one plane of two columns. -/
def twoColumns : Tensor where
  shape := [1, 1, 2]
  data := #[1.5, 0.25]
  size_data := rfl

/-- A header with its members in another order than usual. -/
def turnedHeader : String :=
  "\x7b\"shape\": (1, 1, 2), 'fortran_order' : False, \"descr\":\t'>f8', \x7d  "

def turnedHead : Bytes :=
  Npy.magic ++ ([2, 0] ++ ([66, 0, 0, 0] ++ (Npy.asciiBytes turnedHeader.toList ++ [10])))

def widePayload : Bytes :=
  [0x3f, 0xf8, 0, 0, 0, 0, 0, 0, 0x3f, 0xd0, 0, 0, 0, 0, 0, 0]

section Turned

open Npy.Literal (Dictionary Gap Member)

theorem spelled_turnedHeader :
    Dictionary (headerOf ⟨true, true⟩ [1, 1, 2]).members.reverse turnedHeader.toList := by
  have none : Gap [] := by decide
  have blank : Gap [' '] := by decide
  have shape : Member (.text "shape", Npy.axes [1, 1, 2]) "\"shape\": (1, 1, 2)".toList :=
    .intro (.text none (.inr rfl) (by decide)) none (.tuple blank
      (.more (.whole none) none (.more (.whole blank) none (.last (.whole blank) none)))
      (by decide))
  have order : Member (.text "fortran_order", .truth false) " 'fortran_order' : False".toList :=
    .intro (.text blank (.inl rfl) (by decide)) blank (.atom (.truth blank))
  have descriptor : Member (.text "descr", .text ">f8") " \"descr\":\t'>f8'".toList :=
    .intro (.text blank (.inr rfl) (by decide)) none
      (.atom (.text (by decide : Gap ['\t']) (.inl rfl) (by decide)))
  exact .intro none (.more shape none (.more order none (.more descriptor none (.none blank))))
    (by decide : Gap [' ', ' '])

theorem head_turnedHead : Head (headerOf ⟨true, true⟩ [1, 1, 2]) turnedHead :=
  .intro .two (List.reverse_perm _) spelled_turnedHeader (by decide)

theorem payload_widePayload :
    Encoding.Payload ⟨true, true⟩ twoColumns.data.toList widePayload :=
  .cons (.wide (Binary32.isWord_widen 1.5)) (.cons (.wide (Binary32.isWord_widen 0.25)) .nil)

end Turned

theorem loadMean_stored_twoColumns :
    loadMean ⟨[], [(["mean.npy"], .file (turnedHead ++ widePayload))]⟩ "mean.npy" = .ok [0.875] ∧
      loadMean ⟨[], [(["mean.npy"], .file (turnedHead ++ widePayload.take 15))]⟩ "mean.npy" =
        .error (.npy .missingData) ∧
      loadMean ⟨[], [(["mean.npy"], .file (turnedHead ++ (widePayload ++ [0])))]⟩ "mean.npy" =
        .error (.npy (.extraBytes 1)) := by
  have addressable : Addressable twoColumns.shape := by decide
  have stored := loadMean_stored addressable head_turnedHead payload_widePayload
  have planes : channelMean twoColumns = .ok [laneMean [laneMean [1.5, 0.25]]] := rfl
  have mean : laneMean [laneMean [1.5, 0.25]] = 0.875 := by decide +kernel
  rw [mean] at planes
  exact ⟨((stored _ _).1 rfl).trans planes,
    (stored _ _).2.1 _ _ (List.take_append_drop 15 _).symm (by decide) rfl,
    (stored _ _).2.2 [0] (by decide) rfl⟩

end ViewClassifier

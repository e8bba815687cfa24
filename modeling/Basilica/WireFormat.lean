import Mathlib

/-!
Messages as the bytes of protocol buffers. A message is a sequence of records, each with the number of its field; neither the
type of the message nor a field with its default value leaves a trace in the bytes.
-/

namespace Basilica.WireFormat

open List

section Codes

variable {α β : Type}

def SelfDelimiting (code : α → List β) : Prop :=
  ∀ a b s t, code a ++ s = code b ++ t → a = b ∧ s = t

variable {code : α → List β}

theorem SelfDelimiting.flatMap_inj (h : SelfDelimiting code) (hne : ∀ a, code a ≠ []) {xs ys : List α}
    (heq : xs.flatMap code = ys.flatMap code) : xs = ys := by
  induction xs generalizing ys with
  | nil =>
    cases ys with
    | nil => rfl
    | cons y ys =>
      rw [flatMap_cons] at heq
      exact absurd (append_eq_nil_iff.mp heq.symm).1 (hne y)
  | cons x xs ih =>
    cases ys with
    | nil =>
      rw [flatMap_cons] at heq
      exact absurd (append_eq_nil_iff.mp heq).1 (hne x)
    | cons y ys =>
      rw [flatMap_cons, flatMap_cons] at heq
      obtain ⟨rfl, hrest⟩ := h x y _ _ heq
      rw [ih hrest]

theorem selfDelimiting_of_length {k : ℕ} (hlength : ∀ a, (code a).length = k)
    (hinj : Function.Injective code) : SelfDelimiting code := by
  intro a b s t h
  obtain ⟨hcode, hrest⟩ := append_inj h ((hlength a).trans (hlength b).symm)
  exact ⟨hinj hcode, hrest⟩

end Codes

abbrev Bytes := List UInt8

variable {n : ℕ}

theorem toUInt8_inj {m : ℕ} (hn : n < 256) (hm : m < 256) (h : n.toUInt8 = m.toUInt8) : n = m := by
  have hnat := congrArg UInt8.toNat h
  simpa only [Nat.toUInt8, UInt8.toNat_ofNat_of_lt' hn, UInt8.toNat_ofNat_of_lt' hm] using hnat

def varint (n : ℕ) : Bytes :=
  if n < 128 then [n.toUInt8] else (n % 128 + 128).toUInt8 :: varint (n / 128)
decreasing_by omega

theorem varint_ne_nil (n : ℕ) : varint n ≠ [] := by
  rw [varint]
  split_ifs
  all_goals exact cons_ne_nil _ _

theorem selfDelimiting_varint : SelfDelimiting varint := by
  intro n
  induction n using Nat.strong_induction_on with
  | h n ih =>
    intro m s t h
    rw [varint, varint.eq_def m] at h
    -- a last byte is below 128 and any other byte is not
    split_ifs at h with hn hm hm
    · obtain ⟨hbyte, hrest⟩ := List.cons.inj h
      exact ⟨toUInt8_inj (by omega) (by omega) hbyte, hrest⟩
    · have hbyte := toUInt8_inj (by omega) (by omega) (List.cons.inj h).1
      omega
    · have hbyte := toUInt8_inj (by omega) (by omega) (List.cons.inj h).1
      omega
    · obtain ⟨hbyte, hrest⟩ := List.cons.inj h
      have hlow := toUInt8_inj (by omega) (by omega) hbyte
      obtain ⟨hhigh, hrest⟩ := ih (n / 128) (by omega) (m / 128) s t hrest
      exact ⟨by omega, hrest⟩

def fixed : ℕ → ℕ → Bytes
  | 0, _ => []
  | k + 1, n => (n % 256).toUInt8 :: fixed k (n / 256)

theorem length_fixed (k n : ℕ) : (fixed k n).length = k := by
  induction k generalizing n with
  | zero => rfl
  | succ k ih => rw [fixed, length_cons, ih]

theorem fixed_inj {k m : ℕ} (hn : n < 256 ^ k) (hm : m < 256 ^ k) (h : fixed k n = fixed k m) : n = m := by
  induction k generalizing n m with
  | zero => omega
  | succ k ih =>
    obtain ⟨hbyte, hrest⟩ := List.cons.inj h
    have hlow := toUInt8_inj (by omega) (by omega) hbyte
    have hhigh := ih (by rw [pow_succ] at hn; omega) (by rw [pow_succ] at hm; omega) hrest
    omega

def fixed64 (bits : BitVec 64) : Bytes := fixed 8 bits.toNat

theorem selfDelimiting_fixed64 : SelfDelimiting fixed64 := by
  apply selfDelimiting_of_length (k := 8)
  · intro bits
    exact length_fixed 8 bits.toNat
  · intro a b h
    exact BitVec.eq_of_toNat_eq (fixed_inj a.isLt b.isLt h)

def block (bytes : Bytes) : Bytes := varint bytes.length ++ bytes

theorem selfDelimiting_block : SelfDelimiting block := by
  intro a b s t h
  rw [block, block, append_assoc, append_assoc] at h
  obtain ⟨hlength, hrest⟩ := selfDelimiting_varint _ _ _ _ h
  exact append_inj hrest hlength

inductive Payload
  | varint (n : ℕ)
  | fixed64 (bits : BitVec 64)
  | len (bytes : Bytes)

namespace Payload

def wireType : Payload → ℕ
  | varint _ => 0
  | fixed64 _ => 1
  | len _ => 2

def encode : Payload → Bytes
  | varint n => WireFormat.varint n
  | fixed64 bits => WireFormat.fixed64 bits
  | len bytes => block bytes

theorem wireType_lt (p : Payload) : p.wireType < 8 := by
  cases p <;> simp only [wireType, Nat.reduceLT]

end Payload

abbrev Record := ℕ × Payload

def encodeRecord (r : Record) : Bytes := varint (8 * r.1 + r.2.wireType) ++ r.2.encode

theorem encodeRecord_ne_nil (r : Record) : encodeRecord r ≠ [] := by
  intro h
  exact varint_ne_nil _ (append_eq_nil_iff.mp h).1

theorem selfDelimiting_encodeRecord : SelfDelimiting encodeRecord := by
  rintro ⟨n, p⟩ ⟨m, q⟩ s t h
  rw [encodeRecord, encodeRecord, append_assoc, append_assoc] at h
  obtain ⟨htag, hrest⟩ := selfDelimiting_varint _ _ _ _ h
  have hp := p.wireType_lt
  have hq := q.wireType_lt
  dsimp only at htag
  obtain rfl : n = m := by omega
  have htype : p.wireType = q.wireType := by omega
  -- payloads of one wire type are of one code
  cases p <;> cases q <;> cases htype
  case varint.varint a b =>
    obtain ⟨rfl, hst⟩ := selfDelimiting_varint a b s t hrest
    exact ⟨rfl, hst⟩
  case fixed64.fixed64 a b =>
    obtain ⟨rfl, hst⟩ := selfDelimiting_fixed64 a b s t hrest
    exact ⟨rfl, hst⟩
  case len.len a b =>
    obtain ⟨rfl, hst⟩ := selfDelimiting_block a b s t hrest
    exact ⟨rfl, hst⟩

def recordsFrom : ℕ → List (List Payload) → List Record
  | _, [] => []
  | n, payloads :: fields => payloads.map (fun p => (n, p)) ++ recordsFrom (n + 1) fields

variable {fields : List (List Payload)}

theorem le_of_mem_recordsFrom {r : Record} (h : r ∈ recordsFrom n fields) : n ≤ r.1 := by
  induction fields generalizing n with
  | nil => cases h
  | cons payloads fields ih =>
    rcases mem_append.mp h with hhere | hrest
    · obtain ⟨p, -, rfl⟩ := mem_map.mp hhere
      exact le_refl n
    · have := ih hrest
      omega

theorem filter_recordsFrom (n : ℕ) (payloads : List Payload) (fields : List (List Payload)) :
    (recordsFrom n (payloads :: fields)).filter (fun r => r.1 = n) = payloads.map (fun p => (n, p)) := by
  have hhere : (payloads.map (fun p => ((n, p) : Record))).filter (fun r => r.1 = n) = payloads.map (fun p => (n, p)) := by
    apply filter_eq_self.mpr
    intro r hr
    obtain ⟨p, -, rfl⟩ := mem_map.mp hr
    exact decide_eq_true rfl
  have hrest : (recordsFrom (n + 1) fields).filter (fun r => r.1 = n) = [] := by
    apply filter_eq_nil_iff.mpr
    intro r hr
    have := le_of_mem_recordsFrom hr
    rw [decide_eq_true_eq]
    omega
  rw [recordsFrom, filter_append, hhere, hrest, append_nil]

theorem recordsFrom_inj {fields' : List (List Payload)} (hlength : fields.length = fields'.length)
    (h : recordsFrom n fields = recordsFrom n fields') : fields = fields' := by
  induction fields generalizing n fields' with
  | nil => exact (length_eq_zero_iff.mp hlength.symm).symm
  | cons payloads fields ih =>
    cases fields' with
    | nil => cases hlength
    | cons payloads' fields' =>
      have hhere := congrArg (fun rs => rs.filter (fun r => r.1 = n)) h
      rw [filter_recordsFrom, filter_recordsFrom] at hhere
      obtain rfl : payloads = payloads' := map_injective_iff.mpr (Prod.mk_right_injective n) hhere
      rw [recordsFrom, recordsFrom] at h
      rw [ih (Nat.succ.inj hlength) (append_cancel_left h)]

theorem recordsFrom_append_nil (n : ℕ) (fields : List (List Payload)) (k : ℕ) :
    recordsFrom n (fields ++ List.replicate k []) = recordsFrom n fields := by
  induction fields generalizing n with
  | nil =>
    induction k generalizing n with
    | zero => rfl
    | succ k ih => exact ih (n + 1)
  | cons payloads fields ih => rw [cons_append, recordsFrom, recordsFrom, ih]

def encodeMessage (fields : List (List Payload)) : Bytes := (recordsFrom 1 fields).flatMap encodeRecord

theorem encodeMessage_inj {fields' : List (List Payload)} (h : encodeMessage fields = encodeMessage fields')
    (hlength : fields.length = fields'.length) : fields = fields' := by
  apply recordsFrom_inj hlength (n := 1)
  exact selfDelimiting_encodeRecord.flatMap_inj encodeRecord_ne_nil h

theorem encodeMessage_append_nil (fields : List (List Payload)) (k : ℕ) :
    encodeMessage (fields ++ List.replicate k []) = encodeMessage fields := by
  rw [encodeMessage, encodeMessage, recordsFrom_append_nil]

def number (n : ℕ) : List Payload := if n = 0 then [] else [.varint n]

theorem number_inj {m : ℕ} (h : number n = number m) : n = m := by
  rw [number, number] at h
  split_ifs at h with hn hm
  · rw [hn, hm]
  · cases h
    rfl

def flag (b : Bool) : List Payload := number b.toNat

theorem flag_inj {a b : Bool} (h : flag a = flag b) : a = b := by
  have hnumber := number_inj h
  revert hnumber
  cases a <;> cases b <;> decide

theorem toList_loop (b : ByteArray) (i : ℕ) (r : List UInt8) :
    ByteArray.toList.loop b i r = r.reverse ++ b.data.toList.drop i := by
  fun_induction ByteArray.toList.loop b i r with
  | case1 i r hi ih =>
    have hlength : i < b.data.toList.length := hi
    have hbyte : b.get! i = b.data.toList.get ⟨i, hlength⟩ := getElem!_pos b.data i hi
    rw [ih, reverse_cons, append_assoc, singleton_append, drop_eq_getElem_cons hlength, hbyte]
    rfl
  | case2 i r hi =>
    have hlength : b.data.toList.length ≤ i := Nat.le_of_not_lt hi
    rw [drop_eq_nil_of_le hlength, append_nil]

theorem toList_data (b : ByteArray) : b.toList = b.data.toList := by
  rw [ByteArray.toList, toList_loop]
  rfl

def utf8 (text : String) : Bytes := text.toUTF8.toList

theorem utf8_injective : Function.Injective utf8 := by
  intro a b h
  rw [utf8, utf8, toList_data, toList_data] at h
  exact String.toByteArray_inj.mp (ByteArray.ext (Array.toList_inj.mp h))

def fromUtf8 (bytes : Bytes) : String := (String.fromUTF8? ⟨bytes.toArray⟩).getD ""

theorem fromUtf8_utf8 (text : String) : fromUtf8 (utf8 text) = text := by
  rw [fromUtf8, utf8, toList_data]
  simp only [String.fromUTF8?, Array.toArray_toList]
  have hvalid : ByteArray.IsValidUTF8 ⟨text.toUTF8.data⟩ := text.isValidUTF8
  rw [dif_pos hvalid]
  rfl

def text (s : String) : List Payload := if s = "" then [] else [.len (utf8 s)]

theorem text_inj {s t : String} (h : text s = text t) : s = t := by
  rw [text, text] at h
  split_ifs at h with hs ht
  · rw [hs, ht]
  · exact utf8_injective (Payload.len.inj (List.cons.inj h).1)

def texts (ss : List String) : List Payload := ss.map (fun s => .len (utf8 s))

theorem texts_inj {ss ts : List String} (h : texts ss = texts ts) : ss = ts := by
  refine map_injective_iff.mpr ?_ h
  intro s t hst
  exact utf8_injective (Payload.len.inj hst)

def entries (pairs : List (String × String)) : List Payload :=
  pairs.map (fun p => .len (encodeMessage [text p.1, text p.2]))

theorem entries_inj {ps qs : List (String × String)} (h : entries ps = entries qs) : ps = qs := by
  refine map_injective_iff.mpr ?_ h
  intro p q hpq
  have hbytes : encodeMessage [text p.1, text p.2] = encodeMessage [text q.1, text q.2] := Payload.len.inj hpq
  have hfields := encodeMessage_inj hbytes rfl
  simp only [List.cons.injEq, and_true] at hfields
  exact Prod.ext (text_inj hfields.1) (text_inj hfields.2)

def message (body : Option Bytes) : List Payload := (body.map .len).toList

theorem message_inj {a b : Option Bytes} (h : message a = message b) : a = b := by
  cases a <;> cases b <;> cases h <;> rfl

structure Double where
  bits : BitVec 64

namespace Double

def isZero (d : Double) : Prop := d.bits = 0 ∨ d.bits = 1 <<< 63

instance (d : Double) : Decidable d.isZero := inferInstanceAs (Decidable (_ ∨ _))

def normal (d : Double) : Double := if d.isZero then ⟨0⟩ else d

end Double

def double (d : Double) : List Payload := if d.isZero then [] else [.fixed64 d.bits]

theorem double_inj {a b : Double} (h : double a = double b) : a.normal = b.normal := by
  rw [double, double] at h
  rw [Double.normal, Double.normal]
  split_ifs at h ⊢ with ha hb
  · rfl
  · have hbits := Payload.fixed64.inj (List.cons.inj h).1
    exact congrArg Double.mk hbits

end Basilica.WireFormat

import ClpszDemos.ByteMemory
import ClpszDemos.Overlay

/-!
# The response of the blacklist server

`write_callback` copies what it is given to the beginning of the user's buffer,
as far as it fits, and ends it with a NUL.  It keeps no position: a response
that comes in several calls is written over itself, and each byte of the buffer
is the one of the last call that came as far.
-/

namespace ClpszDemos

namespace Blacklist

open Overlay

/-! ## The callback -/

def writeCallback (curlCallbackBufLen : UInt64) (ptr : Block)
    (size nmemb : UInt64) (userdata : Block) :
    Except Trap (UInt64 × Block) := do
  let cpySize := if size * nmemb < curlCallbackBufLen then size * nmemb
    else curlCallbackBufLen - 1
  let userdata ← userdata.memcpy 0 ptr cpySize.toNat
  let userdata ← userdata.store cpySize.toNat 0
  return (cpySize, userdata)

/-- The data of one call of the callback -/
structure Delivery where
  ptr : Block
  size : UInt64
  nmemb : UInt64
  toNat_mul : (size * nmemb).toNat = ptr.length

/-- The calls of the callback during a transfer, which is aborted when a call
returns fewer bytes than it was given. -/
def curlEasyPerform (curlCallbackBufLen : UInt64) :
    List Delivery → Block → Except Trap Block
  | [], userdata => .ok userdata
  | delivery :: response, userdata => do
      let (written, userdata) ← writeCallback curlCallbackBufLen delivery.ptr
        delivery.size delivery.nmemb userdata
      if written.toNat < delivery.ptr.length then return userdata
      else curlEasyPerform curlCallbackBufLen response userdata

/-- `get_blacklist`, with the calls that the response comes in -/
def getBlacklist (response : List Delivery) (buf : Block) (bufLen : UInt64) :
    Except Trap Block :=
  curlEasyPerform bufLen response buf

/-- The body of the response -/
def body (response : List Delivery) : Block :=
  response.flatMap Delivery.ptr

/-- The first bytes of a text that a buffer of `n` bytes has room for, and the
NUL behind them -/
def cString (n : ℕ) (text : Block) : Block :=
  text.take (n - 1) ++ [0]

/-- The buffer ends up with the beginning of the whole body. -/
def Assembles (response : List Delivery) (buf : Block) (bufLen : UInt64) :
    Prop :=
  ∃ out, getBlacklist response buf bufLen = .ok out ∧
    cString bufLen.toNat (body response) <+: out

/-! ## What the calls write -/

/-- The data up to the first call that does not fit -/
def delivered (n : ℕ) : List Delivery → List Block
  | [] => []
  | delivery :: response =>
      if delivery.ptr.length < n then delivery.ptr :: delivered n response
      else [delivery.ptr]

theorem length_cString (n : ℕ) (text : Block) :
    (cString n text).length = min (n - 1) text.length + 1 := by
  unfold cString
  rw [List.length_append, List.length_take, List.length_singleton]

section Calls

variable {bufLen : UInt64}

theorem toNat_sub_one (hbufLen : 1 ≤ bufLen.toNat) :
    (bufLen - 1).toNat = bufLen.toNat - 1 := by
  have hone : (1 : UInt64).toNat = 1 := rfl
  rw [UInt64.toNat_sub_of_le]
  · rw [hone]
  · exact UInt64.le_iff_toNat_le.mpr hbufLen

/-- The bytes that a call copies leave room for the NUL. -/
theorem cpySize_toNat (hbufLen : 1 ≤ bufLen.toNat) (size : UInt64) :
    (if size < bufLen then size else bufLen - 1).toNat =
      min (bufLen.toNat - 1) size.toNat := by
  by_cases hfits : size < bufLen
  · have hlt := UInt64.lt_iff_toNat_lt.mp hfits
    rw [if_pos hfits]
    omega
  · have hle := UInt64.lt_iff_toNat_lt.not.mp hfits
    rw [if_neg hfits, toNat_sub_one hbufLen]
    omega

/-- Copying a text and storing a NUL behind it -/
theorem memcpy_store_eq (n : ℕ) (text : Block) {userdata : Block}
    (hroom : min (n - 1) text.length < userdata.length) :
    (userdata.memcpy 0 text (min (n - 1) text.length) >>= fun userdata =>
      userdata.store (min (n - 1) text.length) 0) =
        .ok (overlay userdata (cString n text)) := by
  have hcopied : (text.take (n - 1)).length = min (n - 1) text.length :=
    List.length_take
  obtain ⟨byte, rest, hdrop⟩ := List.exists_cons_of_length_pos
    (show 0 < (userdata.drop (min (n - 1) text.length)).length by
      rw [List.length_drop]
      omega)
  have hrest : rest = userdata.drop (cString n text).length := by
    rw [length_cString, ← List.tail_drop, hdrop, List.tail_cons]
  rw [Block.memcpy_eq_ok (by omega) (by omega), List.take_zero,
    List.nil_append, Nat.zero_add, ← List.take_eq_take_min, hdrop]
  have hlast : min (n - 1) text.length <
      (text.take (n - 1) ++ byte :: rest).length := by
    rw [List.length_append, hcopied, List.length_cons]
    omega
  show Block.store _ _ 0 = _
  rw [Block.store_eq_ok hlast 0, ← hcopied, List.set_append_right _ _ le_rfl,
    Nat.sub_self, List.set_cons_zero]
  unfold overlay
  rw [← hrest]
  unfold cString
  rw [List.append_assoc]
  rfl

theorem writeCallback_eq (hbufLen : 1 ≤ bufLen.toNat) (delivery : Delivery)
    {userdata : Block} (hroom : bufLen.toNat ≤ userdata.length) :
    ∃ written : UInt64,
      written.toNat = min (bufLen.toNat - 1) delivery.ptr.length ∧
      writeCallback bufLen delivery.ptr delivery.size delivery.nmemb userdata =
        .ok (written,
          overlay userdata (cString bufLen.toNat delivery.ptr)) := by
  have hsize := cpySize_toNat hbufLen (delivery.size * delivery.nmemb)
  rw [delivery.toNat_mul] at hsize
  refine ⟨_, hsize, ?_⟩
  have hwritten := memcpy_store_eq bufLen.toNat delivery.ptr
    (show min (bufLen.toNat - 1) delivery.ptr.length < userdata.length by
      omega)
  unfold writeCallback
  dsimp only
  rw [hsize, ← bind_assoc, hwritten]
  rfl

/-- Every call writes over the beginning of the buffer. -/
theorem curlEasyPerform_eq (hbufLen : 1 ≤ bufLen.toNat)
    (response : List Delivery) {userdata : Block}
    (hroom : bufLen.toNat ≤ userdata.length) :
    curlEasyPerform bufLen response userdata =
      .ok (((delivered bufLen.toNat response).map
        (cString bufLen.toNat)).foldl overlay userdata) := by
  induction response generalizing userdata with
  | nil => rfl
  | cons delivery response ih =>
      obtain ⟨written, hwritten, hcall⟩ :=
        writeCallback_eq hbufLen delivery hroom
      have hlength : (overlay userdata
          (cString bufLen.toNat delivery.ptr)).length = userdata.length := by
        apply length_overlay
        rw [length_cString]
        omega
      unfold curlEasyPerform delivered
      rw [hcall]
      show (if written.toNat < delivery.ptr.length then Except.ok _
        else curlEasyPerform bufLen response _) = _
      by_cases hfits : delivery.ptr.length < bufLen.toNat
      · have hall : ¬ written.toNat < delivery.ptr.length := by omega
        rw [if_neg hall, if_pos hfits, ih (by rw [hlength]; exact hroom)]
        rfl
      · have hcut : written.toNat < delivery.ptr.length := by omega
        rw [if_pos hcut, if_neg hfits]
        rfl

end Calls

/-! ## What the buffer holds -/

/-- Of the calls that come as far as a byte of the expected text, the last has
this byte there; where none does, the buffer has it before. -/
def LastCallsAgree (response : List Delivery) (buf : Block)
    (bufLen : UInt64) : Prop :=
  ∀ p < (cString bufLen.toNat (body response)).length,
    lastAt buf ((delivered bufLen.toNat response).map (cString bufLen.toNat))
      p = (cString bufLen.toNat (body response))[p]?

theorem delivered_length_le {n : ℕ} {response : List Delivery} {ptr : Block}
    (hptr : ptr ∈ delivered n response) :
    ptr.length ≤ (body response).length := by
  induction response with
  | nil => cases hptr
  | cons delivery response ih =>
      have hbody : (body (delivery :: response)).length =
          delivery.ptr.length + (body response).length := by
        unfold body
        rw [List.flatMap_cons, List.length_append]
      rw [hbody]
      unfold delivered at hptr
      by_cases hfits : delivery.ptr.length < n
      · rw [if_pos hfits] at hptr
        rcases List.mem_cons.mp hptr with rfl | hrest
        · omega
        · have hle := ih hrest
          omega
      · rw [if_neg hfits] at hptr
        rw [List.mem_singleton.mp hptr]
        omega

section Response

variable {response : List Delivery} {buf : Block} {bufLen : UInt64}

theorem assembles_iff_begins (hbufLen : 1 ≤ bufLen.toNat)
    (hroom : bufLen.toNat ≤ buf.length) :
    Assembles response buf bufLen ↔
      cString bufLen.toNat (body response) <+:
        ((delivered bufLen.toNat response).map
          (cString bufLen.toNat)).foldl overlay buf := by
  have hrun := curlEasyPerform_eq hbufLen response hroom
  constructor
  · rintro ⟨out, hout, hprefix⟩
    unfold getBlacklist at hout
    rw [hrun] at hout
    cases hout
    exact hprefix
  · intro hprefix
    exact ⟨_, hrun, hprefix⟩

/-- A text without NUL is in the buffer when the last call had the beginning of
it all. -/
theorem assembles_iff_of_text (hbufLen : 1 ≤ bufLen.toNat)
    (hroom : bufLen.toNat ≤ buf.length) {before : List Block} {last : Block}
    (hcalls : delivered bufLen.toNat response = before ++ [last])
    (htext : 0 ∉ (body response).take (bufLen.toNat - 1)) :
    Assembles response buf bufLen ↔
      (body response).take (bufLen.toNat - 1) =
        last.take (bufLen.toNat - 1) := by
  have hlast : last ∈ delivered bufLen.toNat response := by
    rw [hcalls]
    exact List.mem_append_right _ (List.mem_singleton_self _)
  have hle := delivered_length_le hlast
  rw [assembles_iff_begins hbufLen hroom, hcalls, List.map_append,
    List.foldl_append]
  show _ <+: cString _ last ++ List.drop _ _ ↔ _
  constructor
  · intro hprefix
    have hcut : cString bufLen.toNat last <+:
        cString bufLen.toNat (body response) := by
      apply List.prefix_of_prefix_length_le (List.prefix_append _ _) hprefix
      rw [length_cString, length_cString]
      omega
    unfold cString at hcut
    by_cases hshort : (last.take (bufLen.toNat - 1)).length <
        ((body response).take (bufLen.toNat - 1)).length
    · -- the NUL behind the last call is one of the text
      have hzero := List.prefix_iff_getElem?.mp hcut
        (last.take (bufLen.toNat - 1)).length (by
          rw [List.length_append, List.length_singleton]
          omega)
      rw [List.getElem?_append_left hshort] at hzero
      exact absurd (List.mem_of_getElem? (by simpa using hzero)) htext
    · have hlength : (cString bufLen.toNat (body response)).length ≤
          (cString bufLen.toNat last).length := by
        unfold cString
        rw [List.length_append, List.length_append]
        omega
      exact (List.append_cancel_right (hcut.eq_of_length_le hlength)).symm
  · intro hsame
    unfold cString
    rw [hsame]
    exact List.prefix_append _ _

/-- The body is in the buffer, with its NUL, exactly when the last call that
comes as far agrees with it at every byte.  For a text without NUL this is when
the last call made has the beginning of the whole text. -/
theorem assembles_iff (hbufLen : 1 ≤ bufLen.toNat)
    (hroom : bufLen.toNat ≤ buf.length) :
    (Assembles response buf bufLen ↔ LastCallsAgree response buf bufLen) ∧
    ∀ before last, delivered bufLen.toNat response = before ++ [last] →
      0 ∉ (body response).take (bufLen.toNat - 1) →
      (Assembles response buf bufLen ↔
        (body response).take (bufLen.toNat - 1) =
          last.take (bufLen.toNat - 1)) := by
  constructor
  · rw [assembles_iff_begins hbufLen hroom, List.prefix_iff_getElem?]
    unfold LastCallsAgree
    refine forall_congr' fun p => forall_congr' fun hp => ?_
    rw [getElem?_foldl_overlay, List.getElem?_eq_getElem hp]
  · intro before last hcalls htext
    exact assembles_iff_of_text hbufLen hroom hcalls htext

/-- A response that comes in one call is assembled. -/
theorem assembles_single (hbufLen : 1 ≤ bufLen.toNat)
    (hroom : bufLen.toNat ≤ buf.length) (delivery : Delivery) :
    Assembles [delivery] buf bufLen := by
  rw [assembles_iff_begins hbufLen hroom]
  have hcalls : delivered bufLen.toNat [delivery] = [delivery.ptr] := by
    unfold delivered
    by_cases hfits : delivery.ptr.length < bufLen.toNat
    · rw [if_pos hfits]
      rfl
    · rw [if_neg hfits]
  have hbody : body [delivery] = delivery.ptr := List.append_nil _
  rw [hcalls, hbody]
  exact List.prefix_append _ _

end Response

/-- The text `ab` in one call, and in two -/
def oneCall : List Delivery := [⟨[0x61, 0x62], 1, 2, rfl⟩]

def twoCalls : List Delivery := [⟨[0x61], 1, 1, rfl⟩, ⟨[0x62], 1, 1, rfl⟩]

theorem assembles_iff_oneCall :
    Assembles oneCall [7, 7, 7, 7, 7, 7, 7, 7] 8 := by
  have hassembles := (@assembles_iff oneCall [7, 7, 7, 7, 7, 7, 7, 7] 8
    (by decide) (by decide)).1
  apply hassembles.mpr
  unfold LastCallsAgree
  decide

/-- The second call overwrites the first. -/
theorem not_assembles :
    ¬ ∀ (response : List Delivery) (buf : Block) (bufLen : UInt64),
      1 ≤ bufLen.toNat → bufLen.toNat ≤ buf.length →
      Assembles response buf bufLen := by
  intro hall
  obtain ⟨out, hout, hprefix⟩ := hall twoCalls [7, 7, 7, 7, 7, 7, 7, 7] 8
    (by decide) (by decide)
  have hrun : getBlacklist twoCalls [7, 7, 7, 7, 7, 7, 7, 7] 8 =
      .ok [0x62, 0, 7, 7, 7, 7, 7, 7] := by decide
  rw [hrun] at hout
  cases hout
  exact absurd hprefix (by decide)

end Blacklist

end ClpszDemos

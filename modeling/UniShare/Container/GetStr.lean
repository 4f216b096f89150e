import UniShare.Container.ContInfoReg
import UniShare.Lib.CBuffer

/-!
# The kubelet mounts in a line

`getStr` of `core/container/contInfoReg.c` on the arrays of its caller. Both markers are searched
from the start of the line, and neither their order nor the slash behind the name is checked, so the
length of a copy can wrap around. `accepts_exactly_iff` says on which lines `getStr` recognises
exactly the mounts of kubelet.
-/

namespace UniShare.Container

open Lib

/-! ## The function -/

/-- What `getStr` returns, and the arrays of its caller afterwards. -/
structure GetStr where
  ret : Nat
  poduid : List Char
  podName : List Char
  deriving DecidableEq

/-- `strncpy` of `length` bytes, and the zero behind them. -/
def copyOut (array source : List Char) (length : Nat) : List Char :=
  overwrite (strncpy array source length) length [nul]

/-- `getStr`. A length that is negative, or the distance to a null pointer, is larger than the
memory as a `size_t`, and the copy faults. -/
def getStrInPlace (buffer prefixstr endstr poduid podName : List Char) : Option GetStr :=
  match strstr prefixstr (cstring buffer 0), strstr endstr (cstring buffer 0) with
  | some start, some stop =>
      if stop < start + prefixstr.length then none
      else
        let poduid := copyOut poduid (cstring buffer (start + prefixstr.length))
          (stop - (start + prefixstr.length))
        -- `strchr` for the slash behind the name
        match strstr ['/'] (cstring buffer (stop + endstr.length)) with
        | none => none
        | some length =>
            some ⟨1, poduid, copyOut podName (cstring buffer (stop + endstr.length)) length⟩
  | _, _ => some ⟨0, poduid, podName⟩

/-! ## The mounts -/

/-- The line contains the mount of a container of a pod. -/
structure MountLine (line uid name : List Char) : Prop where
  uidNonempty : uid ≠ []
  uidPlain : '/' ∉ uid
  nameNonempty : name ≠ []
  namePlain : '/' ∉ name
  contained : prefixPod ++ uid ++ endPod ++ name ++ ['/'] <:+: line

/-- For a mount the function returns 1 and stores the UID and the name, for every other line it
returns 0 and leaves the arrays as they are. -/
def AcceptsExactly (buffer poduid podName : List Char) : Prop :=
  ∃ result, getStrInPlace buffer prefixPod endPod poduid podName = some result ∧
    ((∃ uid name, MountLine (cstring buffer 0) uid name ∧ result.ret = 1 ∧
        cstring result.poduid 0 = uid ∧ cstring result.podName 0 = name) ∨
      (∀ uid name, ¬ MountLine (cstring buffer 0) uid name) ∧ result = ⟨0, poduid, podName⟩)

/-- A line with both markers is right when the first `/var/lib/kubelet/pods/` is followed by a UID
without a slash, that by the first `/containers/`, and that by a name and a slash. -/
def MarkersInOrder (line : List Char) : Prop :=
  HoldsBoth line → ∃ uid name, uid ≠ [] ∧ '/' ∉ uid ∧ name ≠ [] ∧ NamesPod uid name line

/-! ## What the function does -/

/-- A copied part of a text is held. -/
theorem holds_copy_out (array : List Char) {source : List Char} {length : Nat}
    (hsource : nul ∉ source) (hfits : length ≤ source.length) :
    Holds (copyOut array source length) 0 (source.take length) := by
  have hlength : (source.take length).length = length := List.length_take_of_le hfits
  have hsplit : source = source.take length ++ source.drop length :=
    (List.take_append_drop length source).symm
  have hheld := holds_copied_front array (hsplit ▸ hsource)
  rwa [← hsplit, hlength] at hheld

/-- What is found ends inside the text. -/
theorem strstr_fits {needle text : List Char} {i : Nat} (h : strstr needle text = some i) :
    i + needle.length ≤ text.length := by
  obtain ⟨hin, hle, -⟩ := strstr_eq_some_iff.mp h
  have hlength := hin.length_le
  rw [List.length_drop] at hlength
  omega

/-- In place, the function finds what `getStr` finds in the line, and faults where that does. -/
theorem get_str_in_place_refines (buffer prefixstr endstr poduid podName : List Char) :
    match getStr (cstring buffer 0) prefixstr endstr with
    | .absent => getStrInPlace buffer prefixstr endstr poduid podName = some ⟨0, poduid, podName⟩
    | .fault => getStrInPlace buffer prefixstr endstr poduid podName = none
    | .found uid name => ∃ result,
        getStrInPlace buffer prefixstr endstr poduid podName = some result ∧
          result.ret = 1 ∧ Holds result.poduid 0 uid ∧ Holds result.podName 0 name := by
  unfold getStr getStrInPlace
  cases hstart : strstr prefixstr (cstring buffer 0) with
  | none => rfl
  | some start =>
      cases hstop : strstr endstr (cstring buffer 0) with
      | none => rfl
      | some stop =>
          have huid : cstring buffer (start + prefixstr.length) =
              (cstring buffer 0).drop (start + prefixstr.length) :=
            cstring_drop (strstr_fits hstart)
          have htail : cstring buffer (stop + endstr.length) =
              (cstring buffer 0).drop (stop + endstr.length) := cstring_drop (strstr_fits hstop)
          dsimp only
          by_cases hge : stop < start + prefixstr.length
          · rw [if_pos hge, if_pos hge]
          · rw [if_neg hge, if_neg hge, ← htail]
            cases hend : strstr ['/'] (cstring buffer (stop + endstr.length)) with
            | none => rfl
            | some length =>
                refine ⟨_, rfl, rfl, ?_, ?_⟩
                · rw [← huid]
                  refine holds_copy_out poduid (nul_not_mem_cstring buffer _) ?_
                  have hfits := strstr_fits hstop
                  rw [huid, List.length_drop]
                  omega
                · have hfits := strstr_fits hend
                  exact holds_copy_out podName (nul_not_mem_cstring buffer _) (by omega)

/-- A mount is in a line with both markers. -/
theorem MountLine.holds_both {line uid name : List Char} (h : MountLine line uid name) :
    HoldsBoth line := by
  constructor
  · refine List.IsInfix.trans ⟨[], uid ++ endPod ++ name ++ ['/'], ?_⟩ h.contained
    simp only [List.nil_append, List.append_assoc]
  · refine List.IsInfix.trans ⟨prefixPod ++ uid, name ++ ['/'], ?_⟩ h.contained
    simp only [List.append_assoc]

/-- What a line names is a mount in it. -/
theorem NamesPod.mount_line {line uid name : List Char} (h : NamesPod uid name line)
    (huid : uid ≠ []) (hplain : '/' ∉ uid) (hname : name ≠ []) : MountLine line uid name := by
  obtain ⟨hnamePlain, before, after, hline, -, -⟩ := h
  refine ⟨huid, hplain, hname, hnamePlain, before, after, ?_⟩
  rw [hline]
  simp only [List.append_assoc, List.singleton_append]

/-! ## The result -/

/-- The function recognises exactly the mounts of kubelet in the lines that have one of the markers
missing, or both in the places where kubelet puts them. -/
theorem accepts_exactly_iff (buffer poduid podName : List Char) :
    AcceptsExactly buffer poduid podName ↔ MarkersInOrder (cstring buffer 0) := by
  have hrefines := get_str_in_place_refines buffer prefixPod endPod poduid podName
  constructor
  · intro h hboth
    obtain ⟨result, hresult, haccepts⟩ := h
    cases hscan : getStr (cstring buffer 0) prefixPod endPod with
    | absent => exact absurd hboth ((get_str_absent_iff _).mp hscan)
    | fault =>
        rw [hscan, hresult] at hrefines
        cases hrefines
    | found uid name =>
        rw [hscan] at hrefines
        obtain ⟨stored, hstored, hret, huid, hname⟩ := hrefines
        obtain rfl : stored = result := Option.some.inj (hstored.symm.trans hresult)
        rcases haccepts with ⟨uid', name', hmount, -, huid', hname'⟩ | ⟨-, hkept⟩
        · -- what is stored is what the line names, and a mount besides
          obtain rfl := huid.cstring_eq.symm.trans huid'
          obtain rfl := hname.cstring_eq.symm.trans hname'
          exact ⟨uid, name, hmount.uidNonempty, hmount.uidPlain, hmount.nameNonempty,
            names_of_get_str hscan⟩
        · rw [hkept] at hret
          cases hret
  · intro h
    by_cases hboth : HoldsBoth (cstring buffer 0)
    · obtain ⟨uid, name, huidNonempty, huidPlain, hnameNonempty, hnames⟩ := h hboth
      rw [get_str_of_names hnames] at hrefines
      obtain ⟨result, hresult, hret, huid, hname⟩ := hrefines
      refine ⟨result, hresult, .inl ⟨uid, name, ?_, hret, huid.cstring_eq, hname.cstring_eq⟩⟩
      exact hnames.mount_line huidNonempty huidPlain hnameNonempty
    · rw [(get_str_absent_iff _).mpr hboth] at hrefines
      exact ⟨_, hrefines, .inr ⟨fun uid name hmount => hboth hmount.holds_both, rfl⟩⟩

/-- A line that ends with the name, and not with a slash. -/
theorem accepts_exactly_no_slash :
    ¬ AcceptsExactly ("/var/lib/kubelet/pods/1f/containers/main\n".toList ++ [nul]) [] [] := by
  intro h
  obtain ⟨result, hresult, -⟩ := h
  have hnone : getStrInPlace ("/var/lib/kubelet/pods/1f/containers/main\n".toList ++ [nul])
      prefixPod endPod [] [] = none := by rfl
  rw [hnone] at hresult
  cases hresult

end UniShare.Container

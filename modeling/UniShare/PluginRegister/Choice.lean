import UniShare.PluginRegister.Vcore

/-!
# The pod that a request is for

Both core plugins infer the pod of a request from its number of device IDs, by the same loops over
their own resource. The count of the second loop runs on from pod to pod, so the pod chosen is the
first one at which the running total of the pods' limits reaches the number of device IDs.
`identifies_pod_iff` says for which lists of pending pods that is a pod of this total of its own.
-/

namespace UniShare.PluginRegister

open Lib Kube

/-- `confirmPod` of `VcoreResourceServer.Allocate`. -/
def VcoreResourceServer.confirmPod (pendingPod : List Pod) (devicesIDs : List String) :
    Option Pod :=
  choosePod resourceCore pendingPod devicesIDs.length

/-- `confirmPod` of `MluCoreSrv.Allocate`. -/
def MluCoreSrv.confirmPod (pendingPod : List Pod) (devicesIDs : List String) : Option Pod :=
  choosePod mluResourceCore pendingPod devicesIDs.length

/-- The pod's own total of limits for a resource, as an integer. -/
def ownTotal (resource : String) (pod : Pod) : Int :=
  (pod.containers.map fun cont => (cont.limit resource).value.toInt).sum

/-- The sum of the pods' own totals. -/
def totalOf (resource : String) (pods : List Pod) : Int :=
  (pods.map (ownTotal resource)).sum

/-- At most one container of the pod has a limit for the resource. -/
def SingleLimit (resource : String) (pod : Pod) : Prop :=
  (pod.containers.filter fun cont => cont.hasLimit resource).length ≤ 1

instance singleLimitDecidable (resource : String) (pod : Pod) :
    Decidable (SingleLimit resource pod) :=
  inferInstanceAs (Decidable (_ ≤ _))

/-- The selected pod has a limit and this total of its own, and some pod is selected if a pending
pod has this total. -/
structure IdentifiesPod (resource : String) (pendingPod : List Pod) (allReqDevice : Nat)
    (selected : Option Pod) : Prop where
  own : ∀ pod, selected = some pod → hasLimit resource pod ∧ ownTotal resource pod = allReqDevice
  found : ∀ pod ∈ pendingPod, ownTotal resource pod = allReqDevice →
    ∃ chosen ∈ pendingPod, selected = some chosen ∧ ownTotal resource chosen = allReqDevice

/-- The sum over no non-empty initial part of these pods agrees with the number of devices in 64
bits. -/
def NeverReached (resource : String) (pods : List Pod) (allReqDevice : Nat) : Prop :=
  ∀ earlier, earlier <+: pods → earlier ≠ [] →
    ¬ totalOf resource earlier ≡ allReqDevice [ZMOD 2 ^ 64]

/-- Either a pod of this total comes before the sum reaches the number of devices and after pods
whose sum vanishes in 64 bits, or no pod has this total and the sum never reaches it. -/
def Undisturbed (resource : String) (pendingPod : List Pod) (allReqDevice : Nat) : Prop :=
  (∃ before pod after, pendingPod = before ++ pod :: after ∧
      ownTotal resource pod = allReqDevice ∧ totalOf resource before ≡ 0 [ZMOD 2 ^ 64] ∧
        NeverReached resource before allReqDevice) ∨
    ((∀ pod ∈ pendingPod, ownTotal resource pod ≠ allReqDevice) ∧
      NeverReached resource pendingPod allReqDevice)

/-! ## The loops over integers -/

/-- A container without a limit contributes nothing. -/
theorem limit_eq_zero {resource : String} {cont : Container}
    (h : cont.hasLimit resource = false) : (cont.limit resource).value = 0 := by
  have hnone : cont.limits.lookup resource = none := by
    simpa [Container.hasLimit] using h
  rw [Container.limit, hnone]
  rfl

/-- Containers without a limit contribute nothing. -/
theorem sum_limits_eq_zero {resource : String} {containers : List Container}
    (h : ∀ cont ∈ containers, cont.hasLimit resource = false) :
    (containers.map fun cont => (cont.limit resource).value.toInt).sum = 0 := by
  induction containers with
  | nil => rfl
  | cons cont rest ih =>
      have hcont : (cont.limit resource).value = 0 := limit_eq_zero (h cont (by simp))
      rw [List.map_cons, List.sum_cons, hcont, ih fun other hother => h other (by simp [hother])]
      rfl

/-- The limits of containers of which at most one has one sum up to an `int64`. -/
theorem sum_limits_lt {resource : String} {containers : List Container}
    (h : (containers.filter fun cont => cont.hasLimit resource).length ≤ 1) :
    (containers.map fun cont => (cont.limit resource).value.toInt).sum < 2 ^ 63 := by
  induction containers with
  | nil => exact show (0 : Int) < 2 ^ 63 by omega
  | cons cont rest ih =>
      rw [List.map_cons, List.sum_cons]
      cases hlimit : cont.hasLimit resource with
      | false =>
          rw [List.filter_cons_of_neg (by simp [hlimit])] at h
          rw [limit_eq_zero hlimit]
          simpa using ih h
      | true =>
          rw [List.filter_cons_of_pos (by simp [hlimit]), List.length_cons] at h
          have hnil : (rest.filter fun cont => cont.hasLimit resource) = [] :=
            List.length_eq_zero_iff.mp (by omega)
          have hrest := sum_limits_eq_zero fun other hother =>
            Bool.eq_false_iff.mpr (List.filter_eq_nil_iff.mp hnil other hother)
          rw [hrest, Int.add_zero]
          exact Int64.toInt_lt _

/-- A pod's own total is not negative. -/
theorem own_total_nonneg (resource : String) (pod : Pod) : 0 ≤ ownTotal resource pod := by
  apply List.sum_nonneg
  intro amount hamount
  obtain ⟨cont, -, rfl⟩ := List.mem_map.mp hamount
  exact Int64.le_iff_toInt_le.mp (cont.limit resource).nonneg

/-- The code's total of a pod with at most one limit is exact. -/
theorem toInt_limit_total {resource : String} {pod : Pod} (h : SingleLimit resource pod) :
    (limitTotal resource pod.containers).toInt = ownTotal resource pod := by
  have hmap : ((pod.containers.map fun cont => (cont.limit resource).value).map Int64.toInt).sum =
      ownTotal resource pod := by
    rw [List.map_map]
    rfl
  rw [limitTotal, toInt_sum_of_lt, hmap]
  · intro amount hamount
    obtain ⟨cont, -, rfl⟩ := List.mem_map.mp hamount
    exact (cont.limit resource).nonneg
  · rw [hmap]
    exact sum_limits_lt h

/-- The code's running total reaches the number of devices when the integer sum agrees with it in
64 bits. -/
theorem running_total_eq_iff {resource : String} {pods : List Pod} {allReqDevice : Nat}
    (h : ∀ pod ∈ pods, SingleLimit resource pod) :
    runningTotal resource pods = Int64.ofNat allReqDevice ↔
      totalOf resource pods ≡ allReqDevice [ZMOD 2 ^ 64] := by
  have hmap : (pods.map fun pod => limitTotal resource pod.containers).map Int64.toInt =
      pods.map (ownTotal resource) := by
    rw [List.map_map]
    exact List.map_congr_left fun pod hpod => toInt_limit_total (h pod hpod)
  have hleft : (runningTotal resource pods).toInt = (totalOf resource pods).bmod (2 ^ 64) := by
    rw [runningTotal, toInt_sum, hmap]
    rfl
  have hright : (Int64.ofNat allReqDevice).toInt = (allReqDevice : Int).bmod (2 ^ 64) :=
    Int64.toInt_ofNat'
  rw [← Int64.toInt_inj, hleft, hright, Int.bmod_eq_bmod_iff_bmod_sub_eq_zero,
    ← Int.dvd_iff_bmod_eq_zero, Int.modEq_comm, Int.modEq_iff_dvd]
  rfl

/-- A pod without a limit adds nothing to the count. -/
theorem limit_total_eq_zero {resource : String} {pod : Pod} (h : hasLimit resource pod = false) :
    limitTotal resource pod.containers = 0 := by
  have hnone : ∀ cont ∈ pod.containers, cont.hasLimit resource = false := by
    simpa [hasLimit] using h
  apply Int64.toInt_inj.mp
  rw [toInt_limit_total, ownTotal, sum_limits_eq_zero hnone]
  · rfl
  · rw [SingleLimit, List.filter_eq_nil_iff.mpr fun cont hcont => by simp [hnone cont hcont]]
    exact Nat.zero_le 1

/-- The pods that the first loop drops do not matter to the second. -/
theorem confirm_pod_candidates {resource : String} {devices : Int64} (hdevices : devices ≠ 0)
    (pods : List Pod) :
    confirmPod resource devices 0 (candidatePodList resource false pods) =
      confirmPod resource devices 0 pods := by
  induction pods with
  | nil => rfl
  | cons pod rest ih =>
      cases hlimit : hasLimit resource pod with
      | false =>
          have hany : (pod.containers.any fun cont => cont.hasLimit resource) = false := hlimit
          have hzero : (0 : Int64) + limitTotal resource pod.containers = 0 := by
            rw [limit_total_eq_zero hlimit, Int64.zero_add]
          simp only [candidatePodList, hany, confirmPod, hzero]
          simpa [hdevices.symm] using ih
      | true =>
          have hany : (pod.containers.any fun cont => cont.hasLimit resource) = true := hlimit
          simp [candidatePodList, hany, candidate_pod_list_set]

/-- The counting loop finds no pod when the count never reaches the number of devices. -/
theorem confirm_pod_eq_none_iff (resource : String) (devices count : Int64) (pods : List Pod) :
    confirmPod resource devices count pods = none ↔
      ∀ earlier, earlier <+: pods → earlier ≠ [] →
        count + runningTotal resource earlier ≠ devices := by
  induction pods generalizing count with
  | nil =>
      refine iff_of_true rfl fun earlier hpart hne => ?_
      exact absurd (List.prefix_nil.mp hpart) hne
  | cons first rest ih =>
      rw [confirmPod]
      split
      · rename_i hreached
        refine iff_of_false (by simp) fun h => h [first] ⟨rest, rfl⟩ (by simp) ?_
        simpa using hreached
      · rename_i hnot
        rw [ih]
        constructor
        · intro h earlier hpart hne
          cases earlier with
          | nil => exact absurd rfl hne
          | cons head tail =>
              obtain ⟨rfl, htail⟩ := List.cons_prefix_cons.mp hpart
              by_cases hempty : tail = []
              · subst hempty
                simpa using hnot
              · simpa [Int64.add_assoc] using h tail htail hempty
        · intro h earlier hpart _
          simpa [Int64.add_assoc] using
            h (first :: earlier) (List.cons_prefix_cons.mpr ⟨rfl, hpart⟩) (by simp)

/-! ## The choice of a core plugin -/

section Choice

variable {resource : String} {pendingPod : List Pod} {allReqDevice : Nat}

/-- The number of devices of a request is not zero as an `int`. -/
theorem devices_ne_zero (hpos : 1 ≤ allReqDevice) (hfit : allReqDevice < 2 ^ 63) :
    Int64.ofNat allReqDevice ≠ 0 := by
  intro h
  have hint : (allReqDevice : Int) = 0 := by
    rw [← Int64.toInt_ofNat_of_lt hfit, h]
    rfl
  omega

/-- A pod with a positive total has a limit. -/
theorem has_limit_of_own_total {pod : Pod} (hpos : 1 ≤ allReqDevice)
    (h : ownTotal resource pod = allReqDevice) : hasLimit resource pod = true := by
  by_contra hlimit
  have hnone : ∀ cont ∈ pod.containers, cont.hasLimit resource = false := by
    simpa [hasLimit] using hlimit
  have hzero : ownTotal resource pod = 0 := sum_limits_eq_zero hnone
  omega

/-- The pod chosen is the first one at which the sum agrees with the number of devices. -/
theorem choose_pod_eq_some_iff_total (hsingle : ∀ pod ∈ pendingPod, SingleLimit resource pod)
    (hpos : 1 ≤ allReqDevice) (hfit : allReqDevice < 2 ^ 63) (pod : Pod) :
    choosePod resource pendingPod allReqDevice = some pod ↔
      ∃ before after, pendingPod = before ++ pod :: after ∧
        totalOf resource before + ownTotal resource pod ≡ allReqDevice [ZMOD 2 ^ 64] ∧
          NeverReached resource before allReqDevice := by
  rw [choosePod, confirm_pod_candidates (devices_ne_zero hpos hfit), confirm_pod_eq_some_iff]
  refine exists_congr fun before => exists_congr fun after => and_congr_right fun hsplit => ?_
  have hbefore : ∀ other ∈ before ++ [pod], SingleLimit resource other := by
    intro other hother
    apply hsingle
    rw [hsplit]
    simp only [List.mem_append, List.mem_cons] at hother ⊢
    tauto
  have hsum : totalOf resource (before ++ [pod]) =
      totalOf resource before + ownTotal resource pod := by
    simp [totalOf]
  rw [Int64.zero_add, running_total_eq_iff hbefore, hsum]
  refine and_congr_right fun _ => ⟨fun h earlier hpart hne => ?_, ?_⟩
  · obtain ⟨later, hlater⟩ := hpart
    have hreached := h earlier later hlater.symm hne
    rw [Int64.zero_add, Ne, running_total_eq_iff] at hreached
    · exact hreached
    · exact fun other hother => hbefore other (by simp [← hlater, hother])
  · intro h earlier later hlater hne
    rw [Int64.zero_add, Ne, running_total_eq_iff]
    · exact h earlier ⟨later, hlater.symm⟩ hne
    · exact fun other hother => hbefore other (by simp [hlater, hother])

/-- No pod is chosen when the sum never agrees with the number of devices. -/
theorem choose_pod_eq_none_iff_total (hsingle : ∀ pod ∈ pendingPod, SingleLimit resource pod)
    (hpos : 1 ≤ allReqDevice) (hfit : allReqDevice < 2 ^ 63) :
    choosePod resource pendingPod allReqDevice = none ↔
      NeverReached resource pendingPod allReqDevice := by
  rw [choosePod, confirm_pod_candidates (devices_ne_zero hpos hfit), confirm_pod_eq_none_iff]
  refine forall_congr' fun earlier => forall_congr' fun hpart => forall_congr' fun _ => ?_
  rw [Int64.zero_add, Ne, running_total_eq_iff]
  exact fun other hother => hsingle other (hpart.mem hother)

/-- A chosen pod is the right one when its own total is the number of devices. -/
theorem identifies_some_iff (hpos : 1 ≤ allReqDevice) {pod : Pod} (hmem : pod ∈ pendingPod) :
    IdentifiesPod resource pendingPod allReqDevice (some pod) ↔
      ownTotal resource pod = allReqDevice := by
  constructor
  · intro h
    exact (h.own pod rfl).2
  · intro h
    refine ⟨fun chosen hchosen => ?_, fun _ _ _ => ⟨pod, hmem, rfl, h⟩⟩
    obtain rfl := Option.some.inj hchosen
    exact ⟨has_limit_of_own_total hpos h, h⟩

/-- Choosing no pod is right when none has the number of devices as its total. -/
theorem identifies_none_iff :
    IdentifiesPod resource pendingPod allReqDevice none ↔
      ∀ pod ∈ pendingPod, ownTotal resource pod ≠ allReqDevice := by
  constructor
  · intro h pod hpod htotal
    obtain ⟨chosen, -, hchosen, -⟩ := h.found pod hpod htotal
    cases hchosen
  · intro h
    refine ⟨fun pod hpod => ?_, fun pod hpod htotal => absurd htotal (h pod hpod)⟩
    cases hpod

/-- The loops choose rightly on exactly the undisturbed lists. -/
theorem choose_pod_identifies_iff (hsingle : ∀ pod ∈ pendingPod, SingleLimit resource pod)
    (hpos : 1 ≤ allReqDevice) (hfit : allReqDevice < 2 ^ 63) :
    IdentifiesPod resource pendingPod allReqDevice (choosePod resource pendingPod allReqDevice) ↔
      Undisturbed resource pendingPod allReqDevice := by
  cases hchoose : choosePod resource pendingPod allReqDevice with
  | none =>
      have hnever := (choose_pod_eq_none_iff_total hsingle hpos hfit).mp hchoose
      rw [identifies_none_iff]
      constructor
      · intro h
        exact .inr ⟨h, hnever⟩
      · rintro (⟨before, pod, after, rfl, htotal, hbefore, hfirst⟩ | ⟨h, -⟩)
        · have hsome := (choose_pod_eq_some_iff_total hsingle hpos hfit pod).mpr
            ⟨before, after, rfl, by simpa [htotal] using hbefore.add_right allReqDevice, hfirst⟩
          rw [hchoose] at hsome
          cases hsome
        · exact h
  | some pod =>
      obtain ⟨before, after, hsplit, hreached, hfirst⟩ :=
        (choose_pod_eq_some_iff_total hsingle hpos hfit pod).mp hchoose
      have hmem : pod ∈ pendingPod := by simp [hsplit]
      rw [identifies_some_iff hpos hmem]
      constructor
      · intro htotal
        refine .inl ⟨before, pod, after, hsplit, htotal, ?_, hfirst⟩
        rw [htotal] at hreached
        exact Int.ModEq.add_right_cancel' allReqDevice (by simpa using hreached)
      · rintro (⟨before', other, after', hsplit', htotal, hbefore', hfirst'⟩ | ⟨-, hnever⟩)
        · have hsome := (choose_pod_eq_some_iff_total hsingle hpos hfit other).mpr
            ⟨before', after', hsplit', by simpa [htotal] using hbefore'.add_right allReqDevice,
              hfirst'⟩
          obtain rfl := Option.some.inj (hchoose.symm.trans hsome)
          exact htotal
        · have hnone := (choose_pod_eq_none_iff_total hsingle hpos hfit).mpr hnever
          rw [hchoose] at hnone
          cases hnone

end Choice

/-- Each core plugin identifies the pod of a request exactly on the undisturbed lists of pending
pods. -/
theorem identifies_pod_iff (pendingPod : List Pod) (devicesIDs : List String)
    (hpos : 1 ≤ devicesIDs.length) (hfit : devicesIDs.length < 2 ^ 63) :
    ((∀ pod ∈ pendingPod, SingleLimit resourceCore pod) →
      (IdentifiesPod resourceCore pendingPod devicesIDs.length
          (VcoreResourceServer.confirmPod pendingPod devicesIDs) ↔
        Undisturbed resourceCore pendingPod devicesIDs.length)) ∧
      ((∀ pod ∈ pendingPod, SingleLimit mluResourceCore pod) →
        (IdentifiesPod mluResourceCore pendingPod devicesIDs.length
            (MluCoreSrv.confirmPod pendingPod devicesIDs) ↔
          Undisturbed mluResourceCore pendingPod devicesIDs.length)) := by
  constructor
  · intro hsingle
    exact choose_pod_identifies_iff hsingle hpos hfit
  · intro hsingle
    exact choose_pod_identifies_iff hsingle hpos hfit

/-- A pending pod with one container that has this limit only. -/
def corePod (resource name uid : String) (units : Quantity) : Pod where
  name := name
  ns := "default"
  uid := uid
  resourceVersion := 1
  annotations := none
  nodeName := "n1"
  containers := [{ name := "main", requests := [], limits := [(resource, units)] }]
  phase := "Pending"
  containerStatuses := []

/-- A pod of ten GPU cores and a pod of ten MLU cores. -/
def mixedPods : List Pod :=
  [corePod resourceCore "a" "uid-a" tenUnits, corePod mluResourceCore "b" "uid-b" tenUnits]

/-- The condition of `identifies_pod_iff` at one pending pod for each plugin. -/
theorem identifies_pod_mixed :
    (IdentifiesPod resourceCore mixedPods tenDevices.length
        (VcoreResourceServer.confirmPod mixedPods tenDevices) ↔
      Undisturbed resourceCore mixedPods tenDevices.length) ∧
      (IdentifiesPod mluResourceCore mixedPods tenDevices.length
          (MluCoreSrv.confirmPod mixedPods tenDevices) ↔
        Undisturbed mluResourceCore mixedPods tenDevices.length) := by
  have h := identifies_pod_iff mixedPods tenDevices (by decide) (by decide)
  exact ⟨h.1 (by decide), h.2 (by decide)⟩

/-- A pod with five cores in front of one with ten. -/
def fiveThenTen (resource : String) : List Pod :=
  [corePod resource "a" "uid-a" fiveUnits, corePod resource "b" "uid-b" tenUnits]

/-- With a pod of five cores in front of it, neither plugin finds a pod of ten cores for a request
of ten device IDs. -/
theorem identifies_pod_counterexample :
    (¬ ∀ (pendingPod : List Pod) (devicesIDs : List String), 1 ≤ devicesIDs.length →
        devicesIDs.length < 2 ^ 63 → (∀ pod ∈ pendingPod, SingleLimit resourceCore pod) →
          IdentifiesPod resourceCore pendingPod devicesIDs.length
            (VcoreResourceServer.confirmPod pendingPod devicesIDs)) ∧
      ¬ ∀ (pendingPod : List Pod) (devicesIDs : List String), 1 ≤ devicesIDs.length →
        devicesIDs.length < 2 ^ 63 → (∀ pod ∈ pendingPod, SingleLimit mluResourceCore pod) →
          IdentifiesPod mluResourceCore pendingPod devicesIDs.length
            (MluCoreSrv.confirmPod pendingPod devicesIDs) := by
  constructor
  · intro h
    obtain ⟨chosen, -, hchosen, -⟩ := (h (fiveThenTen resourceCore) tenDevices (by decide)
      (by decide) (by decide)).found (corePod resourceCore "b" "uid-b" tenUnits) (by decide)
      (by decide)
    rw [show VcoreResourceServer.confirmPod (fiveThenTen resourceCore) tenDevices = none from
      by decide] at hchosen
    cases hchosen
  · intro h
    obtain ⟨chosen, -, hchosen, -⟩ := (h (fiveThenTen mluResourceCore) tenDevices (by decide)
      (by decide) (by decide)).found (corePod mluResourceCore "b" "uid-b" tenUnits) (by decide)
      (by decide)
    rw [show MluCoreSrv.confirmPod (fiveThenTen mluResourceCore) tenDevices = none from
      by decide] at hchosen
    cases hchosen

end UniShare.PluginRegister

import UefiKernel.Lib.Calculus
import UefiKernel.Xen.SharedTable

/-!
# UefiKernel.Xen.RoundTrip

A grant that nobody uses, and its end.

`gnttab_grant_access` takes any `int` for `readonly`, multiplies it by
`GTF_readonly` and puts the product into the flags; `gnttab_end_access` reads
two other bits of the same flags as "in use".  `publishedFlags_low` says what
the five lowest bits of the flags are, and `roundTrips_iff` for which arguments
the end undoes the grant.
-/

namespace UefiKernel.Xen

open Interact Prog

/-! ## the flags -/

/-- The flags that `gnttab_grant_access` stores. -/
def publishedFlags (xen : XenHeaders) (readonly : Int32) : UInt16 :=
  (xen.gtfPermitAccess ||| readonly.toUInt32 * xen.gtfReadonly).toUInt16

/-- The peer may write to the page. -/
def GrantEntry.PermitsWrite (e : GrantEntry) : Prop := e.type = 1 ∧ e.flags &&& 4 = 0

instance (e : GrantEntry) : Decidable e.PermitsWrite := inferInstanceAs (Decidable (_ ∧ _))

/-- The low bits of the flags: access is permitted, and above that the low bits
of the argument, wherever they end up. -/
theorem publishedFlags_low {xen : GrantHeaders} (hx : xen.FromXen) (readonly : Int32) :
    (publishedFlags xen.toXenHeaders readonly).toNat % 32 =
      1 ||| 4 * (readonly.toUInt32.toNat % 8) := by
  have hmul : (readonly.toUInt32 * 4).toNat % 2 ^ 5 = 4 * (readonly.toUInt32.toNat % 8) := by
    have hfour : (4 : UInt32).toNat = 4 := rfl
    rw [UInt32.toNat_mul, hfour]
    omega
  have hmod : ∀ n : Nat, n % 2 ^ 16 % 32 = n % 2 ^ 5 := by omega
  rw [publishedFlags, hx.permitAccess, hx.readonly, UInt32.toNat_toUInt16, UInt32.toNat_or, hmod,
    Nat.or_mod_two_pow, hmul]
  rfl

/-- A mask of the low bits sees the low bits only. -/
theorem and_mask_eq {flags mask : UInt16} (hmask : mask.toNat &&& 31 = mask.toNat) :
    (flags &&& mask).toNat = flags.toNat % 32 &&& mask.toNat := by
  calc (flags &&& mask).toNat
      = flags.toNat &&& (mask.toNat &&& 31) := by rw [UInt16.toNat_and, hmask]
    _ = flags.toNat &&& 31 &&& mask.toNat := by rw [Nat.and_comm mask.toNat, Nat.and_assoc]
    _ = flags.toNat % 32 &&& mask.toNat := by
      rw [show (31 : Nat) = 2 ^ 5 - 1 from rfl, Nat.and_two_pow_sub_one_eq_mod]

section Flags

variable {xen : GrantHeaders} (hx : xen.FromXen) (readonly : Int32)

include hx

/-- A mask of the published flags. -/
theorem publishedFlags_and {mask : UInt16} (hmask : mask.toNat &&& 31 = mask.toNat) :
    (publishedFlags xen.toXenHeaders readonly &&& mask).toNat =
      (1 ||| 4 * (readonly.toUInt32.toNat % 8)) &&& mask.toNat := by
  rw [and_mask_eq hmask, publishedFlags_low hx]

/-- Access is permitted, whatever the argument. -/
theorem publishedFlags_type : publishedFlags xen.toXenHeaders readonly &&& 3 = 1 := by
  have hcases : ∀ k < 8, (1 ||| 4 * k) &&& (3 : UInt16).toNat = 1 := by decide
  refine UInt16.toNat_inj.mp ?_
  rw [publishedFlags_and hx readonly rfl]
  exact hcases _ (Nat.mod_lt _ (by decide))

/-- Writing is permitted to an even argument. -/
theorem publishedFlags_write : publishedFlags xen.toXenHeaders readonly &&& 4 = 0 ↔
    readonly.toUInt32.toNat % 8 % 2 = 0 := by
  have hcases : ∀ k < 8, (1 ||| 4 * k) &&& (4 : UInt16).toNat = 0 ↔ k % 2 = 0 := by decide
  rw [← UInt16.toNat_inj, publishedFlags_and hx readonly rfl]
  exact hcases _ (Nat.mod_lt _ (by decide))

/-- The entry looks unused to its end if the argument has no bit of value 2 or 4. -/
theorem publishedFlags_unused : publishedFlags xen.toXenHeaders readonly &&& 24 = 0 ↔
    readonly.toUInt32.toNat % 8 < 2 := by
  have hcases : ∀ k < 8, (1 ||| 4 * k) &&& (24 : UInt16).toNat = 0 ↔ k < 2 := by decide
  rw [← UInt16.toNat_inj, publishedFlags_and hx readonly rfl]
  exact hcases _ (Nat.mod_lt _ (by decide))

end Flags

/-- The low bits of the argument, as a number. -/
theorem toNat_mod_eight (readonly : Int32) :
    (readonly.toUInt32.toNat % 8 : Int) = readonly.toInt % 8 := by
  have hnat : readonly.toUInt32.toNat = readonly.toBitVec.toNat := rfl
  have hint : readonly.toInt = readonly.toBitVec.toInt := rfl
  rw [hnat, hint, BitVec.toInt_eq_toNat_cond]
  split <;> omega

/-! ## with nobody else at the entry -/

/-- Other entries may change between any two accesses of the kernel, this one
does not. -/
def untouched (ref : UInt32) (t : GrantTable) (e : GrantEvent) (r : e.Answer) (t' : GrantTable) :
    Prop :=
  ∃ t₁, t₁ ref = t ref ∧ e.acts t₁ r t'

section Untouched

variable {xen : GrantHeaders} {list : GnttabList} {ref : UInt32} {t : GrantTable}

/-- A store to the entry. -/
theorem gives_store {store : GrantStore} {f : GrantEntry → GrantEntry} {e : GrantEntry}
    (hstore : ∀ t r t', (GrantEvent.xen (.storeGrant ref store)).acts t r t' ↔
      t' = Function.update t ref (f (t ref)))
    (he : t ref = e) :
    Gives (untouched ref) (ofXen (storeGrant ref store)) (fun _ t' => t' ref = f e) t := by
  refine gives_req (e := GrantEvent.xen (.storeGrant ref store))
    ⟨(), _, t, rfl, (hstore t () _).mpr rfl⟩ ?_
  rintro r t' ⟨t₁, ht₁, hact⟩
  rw [(hstore _ _ _).mp hact, Function.update_self, ht₁, he]

/-- A grant returns the first free reference and leaves its entry published. -/
theorem gives_gnttabGrantAccess (domid : UInt16) (frame : UInt64) (readonly : Int32) :
    Gives (untouched (list 0))
      (ofXen (gnttabGrantAccess xen.toXenHeaders list domid frame readonly))
      (fun r t' => r = (list 0, (getFreeEntry list).2) ∧
        t' (list 0) = ⟨publishedFlags xen.toXenHeaders readonly, domid, frame.toUInt32⟩) t := by
  simp only [gnttabGrantAccess, getFreeEntry, ofXen_bind]
  refine Gives.seq
    (gives_store (f := fun e => { e with frame := frame.toUInt32 }) (fun _ _ _ => .rfl) rfl)
    fun _ t₁ h₁ => ?_
  refine Gives.seq
    (gives_store (f := fun e => { e with domid := domid }) (fun _ _ _ => .rfl) h₁)
    fun _ t₂ h₂ => ?_
  refine Gives.seq
    (gives_store (f := fun e => { e with flags := publishedFlags xen.toXenHeaders readonly })
      (fun _ _ _ => .rfl) h₂)
    fun _ t₃ h₃ => gives_ret ⟨rfl, h₃⟩

/-- One pass of the end of an access decides it, as the entry is the kernel's own. -/
theorem gives_endAccessStep (hx : xen.FromXen) {flags : UInt16} (hflags : (t ref).flags = flags) :
    Gives (untouched ref) (endAccessStep xen ref flags)
      (fun r t' => r = .inr (decide (flags &&& 24 = 0)) ∧
        (flags &&& 24 = 0 → (t' ref).flags = 0)) t := by
  have hmask : flags.toUInt32 &&& (xen.gtfReading ||| xen.gtfWriting) = 0 ↔ flags &&& 24 = 0 := by
    rw [hx.reading, hx.writing]
    exact @and_toUInt32_eq_zero flags 24
  refine Gives.ite (fun huse => ?_) fun hfree => ?_
  · rw [ne_eq, hmask] at huse
    have hprint : Gives (untouched ref)
        (req (GrantEvent.xen (.printf "WARNING: g.e. still in use! (%x)\n" [flags.toUInt64])))
        (fun _ _ => True) t :=
      gives_req ⟨(), t, t, rfl, rfl⟩ fun _ _ _ => trivial
    refine Gives.seq hprint fun _ t₁ _ => gives_ret ⟨?_, ?_⟩
    · rw [decide_eq_false huse]
    · exact fun h => absurd h huse
  · rw [not_not, hmask] at hfree
    have hswap : Gives (untouched ref) (req (GrantEvent.cmpxchgFlags ref flags 0))
        (fun r t' => r = flags ∧ (t' ref).flags = 0) t := by
      refine gives_req ⟨flags, _, t, rfl, hflags.symm, rfl⟩ ?_
      rintro r t' ⟨t₁, ht₁, hr, ht'⟩
      rw [ht₁, hflags] at hr ht'
      rw [if_pos rfl] at ht'
      rw [ht', Function.update_self]
      exact ⟨hr, rfl⟩
    refine Gives.seq hswap ?_
    rintro _ t₁ ⟨rfl, h₁⟩
    refine Gives.ite (fun hne => absurd rfl hne) fun _ => gives_ret ⟨?_, fun _ => h₁⟩
    rw [decide_eq_true hfree]

/-- The end of an access to an entry that nobody else touches. -/
theorem gives_gnttabEndAccess (hx : xen.FromXen) :
    Gives (untouched ref) (gnttabEndAccess xen list ref)
      (fun r t' => if (t ref).flags &&& 24 = 0
        then r = (1, putFreeEntry list ref) ∧ (t' ref).flags = 0
        else r = (0, list)) t := by
  have hload : Gives (untouched ref) (req (GrantEvent.loadFlags ref))
      (fun r t' => r = (t ref).flags ∧ (t' ref).flags = (t ref).flags) t := by
    refine gives_req ⟨(t ref).flags, t, t, rfl, rfl, rfl⟩ ?_
    rintro r t' ⟨t₁, ht₁, hr, ht'⟩
    rw [ht', hr, ht₁]
    exact ⟨rfl, rfl⟩
  refine Gives.seq hload ?_
  rintro flags t₁ ⟨hflags, h₁⟩
  rw [← hflags] at h₁ ⊢
  have hloop : Gives (untouched ref) (loop (endAccessStep xen ref) flags)
      (fun free t' => free = decide (flags &&& 24 = 0) ∧
        (flags &&& 24 = 0 → (t' ref).flags = 0)) t₁ := by
    refine Gives.unroll (Gives.mono ?_ (gives_endAccessStep hx h₁))
    rintro _ t₂ ⟨rfl, h₂⟩
    exact ⟨rfl, h₂⟩
  refine Gives.seq hloop ?_
  rintro _ t₂ ⟨rfl, h₂⟩
  by_cases hfree : flags &&& 24 = 0
  · simp only [hfree, decide_true, if_true]
    exact gives_ret ⟨rfl, h₂ hfree⟩
  · simp only [hfree, decide_false, if_false, Bool.false_eq_true]
    exact gives_ret rfl

end Untouched

/-! ## the list -/

/-- Putting back what was taken, when it was there. -/
theorem putFreeEntry_getFreeEntry {list : GnttabList} (h : list 0 ≠ 0) :
    putFreeEntry (getFreeEntry list).2 (list 0) = list := by
  rw [putFreeEntry_eq, getFreeEntry_eq]
  exact Threaded.put_take h

/-! ## the round trip -/

/-- A grant permits writing exactly if `readonly` is 0, and its end returns 1,
clears the flags and leaves the free list as it was. -/
def RoundTrips (xen : GrantHeaders) (list : GnttabList) (t : GrantTable) (domid : UInt16)
    (frame : UInt64) (readonly : Int32) : Prop :=
  Gives (untouched (list 0))
    (ofXen (gnttabGrantAccess xen.toXenHeaders list domid frame readonly))
    (fun r t₁ => ((t₁ r.1).PermitsWrite ↔ readonly = 0) ∧
      Gives (untouched (list 0)) (gnttabEndAccess xen r.2 r.1)
        (fun r' t₂ => r' = (1, list) ∧ (t₂ r.1).flags = 0) t₁) t

theorem permitsWrite_iff {xen : GrantHeaders} (hx : xen.FromXen) (readonly : Int32)
    (domid : UInt16) (frame : UInt32) :
    GrantEntry.PermitsWrite ⟨publishedFlags xen.toXenHeaders readonly, domid, frame⟩ ↔
      readonly.toInt % 2 = 0 := by
  have hbits := toNat_mod_eight readonly
  have heven : readonly.toUInt32.toNat % 8 % 2 = 0 ↔ readonly.toInt % 2 = 0 := by omega
  rw [GrantEntry.PermitsWrite, GrantEntry.type, and_iff_right (publishedFlags_type hx readonly),
    ← heven]
  exact publishedFlags_write hx readonly

/-- **Ending a grant undoes making it** exactly if `readonly` is 0 or leaves 1
when divided by 8. -/
theorem roundTrips_iff {xen : GrantHeaders} (hx : xen.FromXen) {list : GnttabList}
    (hfree : list 0 ≠ 0) (t : GrantTable) (domid : UInt16) (frame : UInt64) (readonly : Int32) :
    RoundTrips xen list t domid frame readonly ↔ readonly = 0 ∨ readonly.toInt % 8 = 1 := by
  have hzero : readonly = 0 ↔ readonly.toInt = 0 := Int32.toInt_inj.symm
  have hbits := toNat_mod_eight readonly
  have hunused : publishedFlags xen.toXenHeaders readonly &&& 24 = 0 ↔ readonly.toInt % 8 < 2 := by
    rw [publishedFlags_unused hx]
    omega
  have hgrant : Gives (untouched (list 0))
      (ofXen (gnttabGrantAccess xen.toXenHeaders list domid frame readonly)) _ t :=
    gives_gnttabGrantAccess domid frame readonly
  constructor
  · intro h
    obtain ⟨r, t₁, hrun, hwrite, hend⟩ := h.exists_run
    obtain ⟨rfl, hentry⟩ := hgrant.2 r t₁ hrun
    obtain ⟨r', t₂, hrun', rfl, -⟩ := hend.exists_run
    have hresult := (gives_gnttabEndAccess hx).2 _ _ hrun'
    rw [hentry] at hwrite hresult
    rw [permitsWrite_iff hx, hzero] at hwrite
    rw [hzero]
    by_cases hlow : readonly.toInt % 8 < 2
    · omega
    · rw [if_neg (hunused.not.mpr hlow)] at hresult
      exact absurd (congrArg Prod.fst hresult) (show (1 : Int32) ≠ 0 by decide)
  · intro h
    rw [hzero] at h
    refine Gives.mono ?_ hgrant
    rintro _ t₁ ⟨rfl, hentry⟩
    refine ⟨?_, Gives.mono ?_ (gives_gnttabEndAccess hx)⟩
    · rw [hentry, permitsWrite_iff hx, hzero]
      omega
    · intro r' t₂ hresult
      rw [hentry, if_pos (hunused.mpr (by omega)), putFreeEntry_getFreeEntry hfree] at hresult
      exact hresult

/-- The first grant after `init_gnttab`. -/
theorem roundTrips_sample :
    RoundTrips xenHeaders initList (fun _ => ⟨0, 0, 0⟩) 6 5 1 ↔
      (1 : Int32) = 0 ∨ (1 : Int32).toInt % 8 = 1 :=
  roundTrips_iff fromXen_xenHeaders isRef_initList.ne_zero _ 6 5 1

/-- With 2 for `readonly` the page is granted for writing, and the end takes the
entry for one in use. -/
theorem roundTrip_fails : ¬ ∀ (xen : GrantHeaders) (list : GnttabList) (t : GrantTable)
    (domid : UInt16) (frame : UInt64) (readonly : Int32), xen.FromXen → list 0 ≠ 0 →
      RoundTrips xen list t domid frame readonly := by
  intro hall
  have h := hall xenHeaders initList (fun _ => ⟨0, 0, 0⟩) 6 5 2 fromXen_xenHeaders
    isRef_initList.ne_zero
  obtain ⟨r, t₁, hrun, hwrite, -⟩ := h.exists_run
  obtain ⟨rfl, hentry⟩ := (gives_gnttabGrantAccess 6 5 2).2 r t₁ hrun
  rw [hentry] at hwrite
  exact absurd (hwrite.mp (by decide)) (by decide)

end UefiKernel.Xen

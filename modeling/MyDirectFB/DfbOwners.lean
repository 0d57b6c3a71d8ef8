/-
Who owns the resources behind a container.  What an image or a window object does
turns the owner of some resources into the owner of others, whatever else there is;
nothing is released that has no owner.
-/
import MyDirectFB.DfbResources

namespace MyDirectFB

open Dfb

/-- The resource of a pointer that may be NULL. -/
def held {kind : ResourceKind} : Option (Pointer kind) → Multiset Resource
  | none => 0
  | some pointer => {pointer.resource}

def ImageObject.owned (img : ImageObject) : Multiset Resource :=
  held img.mDFBSurface

def HeapImage.owned (img : HeapImage) : Multiset Resource :=
  {img.this.resource} + img.image.owned

def HeapImage.ownedIfSet : Option HeapImage → Multiset Resource
  | none => 0
  | some img => img.owned

def WindowObject.owned (window : WindowObject) : Multiset Resource :=
  {window.this.resource} + (held window.mDFBWindow + held window.mDFBSurface)

def WindowObject.ownedIfSet : Option WindowObject → Multiset Resource
  | none => 0
  | some window => window.owned

/-- The open resources are those of `owned`, what deleted windows have left open, and
the providers of images without a surface; of what windows get nothing is released. -/
structure Dfb.Owns (owned : Multiset Resource) (dfb : Dfb) : Prop where
  accounts : ∃ windows : Multiset Resource,
    dfb.ledger.Accounts owned (windows + (dfb.unrendered : Multiset Resource)) ∧
      ∀ r ∈ windows, r.kind.ofWindow = true
  unrendered : ∀ r ∈ dfb.unrendered, r.kind = .imageProvider
  serial : ∀ r ∈ dfb.ledger.acquired, r.serial < dfb.ledger.acquired.length
  kept : ∀ r ∈ dfb.ledger.acquired, r.kind.ofWindow = true → r ∈ dfb.ledger.opened

/-- The fault of a call through NULL. -/
def DfbFault.IsNull (fault : DfbFault) : Prop :=
  fault = .nullSurface

/-- The program turns the owner of `before` into one of `after`, and it does not
release what is not open. -/
abbrev Transfers {A : Type} (program : DfbM A) (before : Multiset Resource)
    (after : A → Multiset Resource) : Prop :=
  ∀ others, Triple (Owns (before + others)) program
    (fun a => Owns (after a + others)) DfbFault.IsNull

namespace Transfers

variable {A B : Type} {program : DfbM A} {before : Multiset Resource}
  {after : A → Multiset Resource}

theorem pure {a : A} : Transfers (Pure.pure a) (after a) after :=
  fun _ => Triple.pure fun _ hdfb => hdfb

theorem bind {next : A → DfbM B} {last : B → Multiset Resource}
    (hfirst : Transfers program before after)
    (hnext : ∀ a, Transfers (next a) (after a) last) :
    Transfers (program >>= next) before last :=
  fun others => Triple.bind (hfirst others) fun a => hnext a others

/-- What the program does not touch keeps its owner. -/
theorem frame (h : Transfers program before after) (kept : Multiset Resource) :
    Transfers program (before + kept) fun a => after a + kept := by
  intro others
  simpa only [add_assoc] using h (kept + others)

theorem of_eq {before' : Multiset Resource} {after' : A → Multiset Resource}
    (h : Transfers program before after) (hbefore : before' = before)
    (hafter : ∀ a, after a = after' a) : Transfers program before' after' := by
  obtain rfl := hbefore
  obtain rfl : after = after' := funext hafter
  exact h

end Transfers

namespace Dfb

variable {succeeds : Nat → Bool} {owned : Multiset Resource} {kind : ResourceKind}

theorem init_owns : Owns 0 init where
  accounts := ⟨0, HandleLedger.Accounts.empty, fun _ hr => absurd hr (by simp)⟩
  unrendered := fun _ hr => absurd hr List.not_mem_nil
  serial := fun _ hr => absurd hr List.not_mem_nil
  kept := fun _ hr => absurd hr List.not_mem_nil

theorem Owns.fresh {dfb : Dfb} (hdfb : dfb.Owns owned) :
    ⟨kind, dfb.ledger.acquired.length⟩ ∉ dfb.ledger.opened := by
  obtain ⟨windows, haccounts, -⟩ := hdfb.accounts
  intro hopened
  exact Nat.lt_irrefl _ (hdfb.serial _ (haccounts.acquired _ hopened))

theorem transfers_create :
    Transfers (create kind) 0 fun pointer => {pointer.resource} := by
  intro others
  refine Triple.get_bind fun dfb hdfb => Triple.bind (Triple.set fun _ _ => ?_)
    fun _ => Triple.pure fun _ hafter => hafter
  rw [zero_add] at hdfb
  obtain ⟨windows, haccounts, hwindows⟩ := hdfb.accounts
  refine ⟨⟨windows, haccounts.acquire hdfb.fresh, hwindows⟩, hdfb.unrendered, ?_, ?_⟩
  · intro r hr
    rcases List.mem_cons.mp hr with rfl | hr
    · exact Nat.lt_succ_self _
    · exact Nat.lt_succ_of_lt (hdfb.serial r hr)
  · intro r hr hkind
    rcases List.mem_cons.mp hr with rfl | hr
    · exact List.mem_cons_self
    · exact List.mem_cons_of_mem _ (hdfb.kept r hr hkind)

/-- What an owner has can be released, unless it comes from a window. -/
theorem transfers_release (pointer : Pointer kind) (hkind : kind.ofWindow = false) :
    Transfers (release pointer) {pointer.resource} fun _ => 0 := by
  intro others
  refine Triple.get_bind fun dfb hdfb => ?_
  obtain ⟨windows, haccounts, hwindows⟩ := hdfb.accounts
  rw [if_pos haccounts.mem_of_owned]
  refine Triple.set fun _ _ => ?_
  refine ⟨⟨windows, ?_, hwindows⟩, hdfb.unrendered, hdfb.serial, ?_⟩
  · rw [zero_add]
    exact haccounts.release
  · intro r hr hofWindow
    refine HandleLedger.mem_opened_release.mpr ⟨hdfb.kept r hr hofWindow, ?_⟩
    rintro rfl
    exact Bool.noConfusion (hkind.symm.trans hofWindow)

theorem transfers_releaseIfSet (pointer : Option (Pointer kind))
    (hkind : kind.ofWindow = false) :
    Transfers (releaseIfSet pointer) (held pointer) fun _ => 0 := by
  cases pointer with
  | none => exact fun others => Triple.pure fun _ hdfb => hdfb
  | some pointer => exact transfers_release pointer hkind

theorem transfers_leaveBehind (provider : Pointer .imageProvider) :
    Transfers (leaveBehind provider) {provider.resource} fun _ => 0 := by
  intro others
  refine Triple.modify fun dfb hdfb => ?_
  obtain ⟨windows, haccounts, hwindows⟩ := hdfb.accounts
  refine ⟨⟨windows, ?_, hwindows⟩, ?_, hdfb.serial, hdfb.kept⟩
  · have hlost := haccounts.lose
    rw [zero_add]
    rwa [← Multiset.cons_coe, ← Multiset.singleton_add, add_left_comm]
  · intro r hr
    rcases List.mem_cons.mp hr with rfl | hr
    · rfl
    · exact hdfb.unrendered r hr

/-- A call changes the number of calls only. -/
theorem transfers_call (resources : Multiset Resource) :
    Transfers (call succeeds) resources fun _ => resources := by
  intro others
  exact Triple.get_bind fun dfb hdfb => Triple.bind
    (Triple.set fun _ _ => ⟨hdfb.accounts, hdfb.unrendered, hdfb.serial, hdfb.kept⟩)
    fun _ => Triple.pure fun _ hafter => hafter

theorem transfers_tryCreate : Transfers (tryCreate succeeds kind) 0 held := by
  intro others
  refine Triple.bind (transfers_call 0 others) fun success => ?_
  cases success with
  | false => exact Triple.pure fun _ hdfb => hdfb
  | true =>
      exact Triple.bind (transfers_create others) fun pointer =>
        Triple.pure fun _ hdfb => hdfb

/-- What comes from a window may be left without an owner. -/
theorem Owns.lose {dfb : Dfb} {lost : Multiset Resource}
    (hdfb : dfb.Owns (lost + owned)) (hlost : ∀ r ∈ lost, r.kind.ofWindow = true) :
    dfb.Owns owned := by
  obtain ⟨windows, haccounts, hwindows⟩ := hdfb.accounts
  refine ⟨⟨lost + windows, ?_, ?_⟩, hdfb.unrendered, hdfb.serial, hdfb.kept⟩
  · rw [add_assoc]
    exact haccounts.lose
  · intro r hr
    rcases Multiset.mem_add.mp hr with hr | hr
    · exact hlost r hr
    · exact hwindows r hr

theorem kind_of_mem_held {pointer : Option (Pointer kind)} {r : Resource}
    (hr : r ∈ held pointer) : r.kind = kind := by
  cases pointer with
  | none => exact absurd hr (Multiset.notMem_zero r)
  | some pointer => rw [Multiset.mem_singleton.mp hr, Pointer.resource]

end Dfb

/-! ### Images and windows -/

section

variable {succeeds : Nat → Bool}

theorem ImageObject.transfers_loadImage (img : ImageObject) :
    Transfers (img.loadImage succeeds) img.owned ImageObject.owned := by
  obtain ⟨_ | surface⟩ := img
  · refine Transfers.bind transfers_tryCreate fun provider => ?_
    cases provider with
    | none => exact Transfers.pure
    | some provider =>
        have hsurface := (@transfers_tryCreate succeeds .imageSurface).frame
          {provider.resource}
        refine Transfers.bind (hsurface.of_eq (zero_add _).symm fun _ => rfl)
          fun surface => ?_
        cases surface with
        | none =>
            refine Transfers.bind ((transfers_leaveBehind provider).of_eq
              (zero_add _) fun _ => rfl) fun _ => Transfers.pure
        | some surface =>
            have hrelease := (transfers_release provider rfl).frame
              {surface.resource}
            refine Transfers.bind (hrelease.of_eq (add_comm _ _)
              fun _ => zero_add _) fun _ => Transfers.pure
  · exact Transfers.pure

theorem ImageObject.transfers_flush (img : ImageObject) :
    Transfers img.flush img.owned fun _ => 0 :=
  transfers_releaseIfSet img.mDFBSurface rfl

/-- Where the surface cannot be loaded, the fault is that of a call through NULL. -/
theorem ImageObject.transfers_sub (img : ImageObject) :
    Transfers (img.sub succeeds) img.owned fun result =>
      result.1.owned + result.2.owned := by
  refine Transfers.bind img.transfers_loadImage fun loaded => ?_
  obtain ⟨_ | surface⟩ := loaded
  · exact fun _ => Triple.throw rfl
  · have hpart := (@transfers_tryCreate succeeds .imageSurface).frame
      {surface.resource}
    exact Transfers.bind (hpart.of_eq (zero_add _).symm fun _ => add_comm _ _)
      fun part => Transfers.pure

theorem HeapImage.transfers_new : Transfers HeapImage.new 0 HeapImage.owned :=
  Transfers.bind transfers_create fun _ => Transfers.pure

theorem HeapImage.transfers_delete (img : HeapImage) :
    Transfers img.delete img.owned fun _ => 0 := by
  have hflush := img.image.transfers_flush.frame {img.this.resource}
  exact Transfers.bind (hflush.of_eq (add_comm _ _) fun _ => zero_add _)
    fun _ => transfers_release img.this rfl

theorem HeapImage.transfers_deleteIfSet (img : Option HeapImage) :
    Transfers (deleteIfSet img) (ownedIfSet img) fun _ => 0 := by
  cases img with
  | none => exact @Transfers.pure Unit (fun _ => 0) _
  | some img => exact img.transfers_delete

theorem WindowObject.transfers_new :
    Transfers (WindowObject.new succeeds) 0 WindowObject.owned := by
  refine Transfers.bind transfers_create fun this => ?_
  have hwindow := (@transfers_tryCreate succeeds .window).frame {this.resource}
  refine Transfers.bind (hwindow.of_eq (zero_add _).symm fun _ => add_comm _ _)
    fun window => ?_
  cases window with
  | none => exact Transfers.pure
  | some window =>
      have hsurface := (@transfers_tryCreate succeeds .windowSurface).frame
        ({this.resource} + {window.resource})
      refine Transfers.bind (hsurface.of_eq (zero_add _).symm fun surface => ?_)
        fun surface => Transfers.pure
      rw [add_comm, add_assoc]
      rfl

theorem WindowObject.transfers_isVisible (window : WindowObject)
    (resources : Multiset Resource) :
    Transfers (window.isVisible succeeds) resources fun _ => resources := by
  have hpure (visible : Bool) :
      Transfers (pure visible) resources fun _ => resources :=
    @Transfers.pure Bool (fun _ => resources) visible
  obtain ⟨this, _ | dfbWindow, surface, visible⟩ := window
  · exact hpure false
  · refine Transfers.bind (transfers_call resources) fun success => ?_
    cases success with
    | false => exact hpure false
    | true => exact hpure visible

theorem WindowObject.transfers_setOpacity (window : WindowObject) (visible : Bool) :
    Transfers (window.setOpacity succeeds visible) window.owned
      WindowObject.owned := by
  obtain ⟨this, _ | dfbWindow, surface, before⟩ := window
  · exact Transfers.pure
  · refine Transfers.bind (transfers_call _) fun success => ?_
    cases success with
    | false => exact Transfers.pure
    | true => exact Transfers.pure

theorem WindowObject.transfers_show (window : WindowObject) :
    Transfers (window.show succeeds) window.owned WindowObject.owned := by
  refine Transfers.bind (window.transfers_isVisible _) fun visible => ?_
  cases visible with
  | true => exact Transfers.pure
  | false => exact window.transfers_setOpacity true

theorem WindowObject.transfers_loadIf (missing : Bool) (img : ImageObject) :
    Transfers (loadIf succeeds missing img) img.owned ImageObject.owned := by
  cases missing with
  | true => exact img.transfers_loadImage
  | false => exact Transfers.pure

theorem WindowObject.transfers_drawImage (window : WindowObject)
    (img : ImageObject) (centreX centreY : Bool) :
    Transfers (window.drawImage succeeds img centreX centreY) img.owned
      ImageObject.owned := by
  obtain ⟨this, dfbWindow, _ | surface, visible⟩ := window
  · exact Transfers.pure
  · exact Transfers.bind (transfers_loadIf centreX img) fun img =>
      Transfers.bind (transfers_loadIf centreY img) fun img => img.transfers_loadImage

/-- What a window got from DirectFB has no owner once it is deleted. -/
theorem WindowObject.transfers_delete (window : WindowObject) :
    Transfers window.delete window.owned fun _ => 0 := by
  obtain ⟨this, dfbWindow, surface, visible⟩ := window
  have hrelease := (transfers_release this rfl).frame
    (held dfbWindow + held surface)
  intro others
  refine (hrelease others).mono (fun _ hdfb => hdfb) (fun _ dfb hdfb => ?_)
    fun _ hfault => hfault
  rw [zero_add]
  rw [zero_add] at hdfb
  refine hdfb.lose fun r hr => ?_
  rcases Multiset.mem_add.mp hr with hr | hr
  · rw [kind_of_mem_held hr]
    rfl
  · rw [kind_of_mem_held hr]
    rfl

theorem WindowObject.transfers_deleteIfSet (window : Option WindowObject) :
    Transfers (deleteIfSet window) (ownedIfSet window) fun _ => 0 := by
  cases window with
  | none => exact @Transfers.pure Unit (fun _ => 0) _
  | some window => exact window.transfers_delete

end

end MyDirectFB

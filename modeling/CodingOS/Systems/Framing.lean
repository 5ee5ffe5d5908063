import CodingOS.Systems.Program

/-!
# Programs that move their state along a relation

`p.Along M G R`: every operation of `p` gives the guarantee `G`, and however a run of `p` ends, its last
state is related to its first by the preorder `R`.  What a program leaves alone is stated so once for
each operation, and composed.
-/

namespace Systems

namespace Program

variable {Op : Type} {Answer : Op → Type} {σ ε ε' α β : Type} {M : Machine Answer σ}
  {G : σ → Op → σ → Prop} {R : σ → σ → Prop} {p : Program Answer ε α} {s : σ}
  {Q : α → σ → Prop} {E : ε → σ → Prop}

def Along (M : Machine Answer σ) (G : σ → Op → σ → Prop) (R : σ → σ → Prop)
    (p : Program Answer ε α) : Prop :=
  ∀ s, p.wp M G (fun _ t => R s t) (fun _ t => R s t) s

theorem Along.wp (h : p.Along M G R) (hvalue : ∀ a t, R s t → Q a t) (hraise : ∀ e t, R s t → E e t) :
    p.wp M G Q E s :=
  wp_mono (h s) hvalue hraise

variable [IsPreorder σ R]

theorem Along.ret (a : α) : (.ret a : Program Answer ε α).Along M G R := fun s => refl_of R s

theorem Along.raise (e : ε) : (.raise e : Program Answer ε α).Along M G R := fun s => refl_of R s

theorem Along.bind {f : α → Program Answer ε β} (hp : p.Along M G R) (hf : ∀ a, (f a).Along M G R) :
    (p >>= f).Along M G R := by
  intro s
  rw [wp_bind]
  exact hp.wp (fun a t hst => (hf a).wp (fun _ _ htu => trans_of R hst htu) fun _ _ htu =>
    trans_of R hst htu) fun _ _ hst => hst

theorem Along.handle {handler : ε → Program Answer ε' α} (hp : p.Along M G R)
    (hhandler : ∀ e, (handler e).Along M G R) : (p.handle handler).Along M G R := by
  intro s
  rw [wp_handle]
  exact hp.wp (fun _ _ hst => hst) fun e t hst => (hhandler e).wp (fun _ _ htu => trans_of R hst htu)
    fun _ _ htu => trans_of R hst htu

/-- `for x in xs: f(x)`. -/
theorem Along.forM {f : β → Program Answer ε Unit} (hf : ∀ b, (f b).Along M G R) (bs : List β) :
    (bs.forM f).Along M G R := by
  induction bs with
  | nil => exact .ret ()
  | cons b bs ih => exact (hf b).bind fun _ => ih

end Program

end Systems

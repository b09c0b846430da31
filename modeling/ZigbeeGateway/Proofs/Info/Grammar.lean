-- The grammar of entries: which trees a run of tokens stands for, and that reading the tokens one
-- after the other builds these trees.
import ZigbeeGateway.Info.Node
import ZigbeeGateway.Proofs.Info.Layout
namespace ZigbeeGateway.Info

/-! ## The grammar -/

/-- The texts at the front of an entry: its key, and data unless that is empty. -/
inductive Head (line : Nat) (key : String) : (data : String) → List Placed → Prop
  | key : Head line key "" [⟨.text key, line⟩]
  | keyAndData {data : String} {dataLine : Nat} :
      Head line key data [⟨.text key, line⟩, ⟨.text data, dataLine⟩]

/-- The trees that tokens stand for. An entry without a block ends its line or the tokens; the
block of an entry may start lines later. -/
inductive Forest : List Placed → List Node → Prop
  | nil : Forest [] []
  | lineBreak {line : Nat} {ts : List Placed} {ns : List Node} :
      Forest ts ns → Forest (⟨.lineBreak, line⟩ :: ts) ns
  | plain {line : Nat} {key data : String} {head ts : List Placed} {ns : List Node} :
      Head line key data head → (∀ t ∈ ts.head?, t.token = .lineBreak) → Forest ts ns →
      Forest (head ++ ts) (⟨line, key, data, []⟩ :: ns)
  | block {line opened closed : Nat} {key data : String} {head breaks inner ts : List Placed}
      {children ns : List Node} :
      Head line key data head → (∀ t ∈ breaks, t.token = .lineBreak) → Forest inner children →
      Forest ts ns →
      Forest (head ++ breaks ++ ⟨.opening, opened⟩ :: inner ++ ⟨.closing, closed⟩ :: ts)
        (⟨line, key, data, children⟩ :: ns)

/-! ## Tokens one after the other -/

namespace Build

variable {b : Build} {line opened : Nat} {key data : String} {head breaks : List Placed}

/-- The entry at the end has its whole line behind it, or there is none. -/
def LineOver (b : Build) : Prop :=
  b.pending = .fresh ∨ ∃ line key data, b.pending = .rested line key data

/-- The entry at the end is the given one and may get a block. -/
def Awaits (b : Build) (line : Nat) (key data : String) : Prop :=
  (b.pending = .keyed line key ∧ data = "") ∨ b.pending = .full line key data ∨
    b.pending = .rested line key data

/-- The entries so far, the one at the end included, with more entries behind them. -/
def followedBy (b : Build) (ns : List Node) : Build :=
  ⟨b.blocks, ns.reverse ++ b.settle.nodes, .fresh⟩

theorem settle_fresh (blocks : List Open) (nodes : List Node) :
    settle ⟨blocks, nodes, .fresh⟩ = ⟨blocks, nodes, .fresh⟩ := rfl

theorem settle_eq (b : Build) : b.settle = b.followedBy [] := by
  obtain ⟨blocks, nodes, pending⟩ := b
  cases pending <;> rfl

theorem settle_blocks (b : Build) : b.settle.blocks = b.blocks := by
  rw [settle_eq, followedBy]

theorem settle_nodes_of_awaits (h : b.Awaits line key data) :
    b.settle.nodes = ⟨line, key, data, []⟩ :: b.nodes := by
  obtain ⟨blocks, nodes, pending⟩ := b
  rcases h with ⟨h, rfl⟩ | h | h <;> obtain rfl := h <;> rfl

theorem step_lineBreak (b : Build) (line : Nat) :
    ∃ b', b.step ⟨.lineBreak, line⟩ = .ok b' ∧ b'.LineOver ∧ b'.blocks = b.blocks ∧
      b'.settle.nodes = b.settle.nodes := by
  obtain ⟨blocks, nodes, pending⟩ := b
  cases pending with
  | fresh => exact ⟨_, rfl, .inl rfl, rfl, rfl⟩
  | keyed line key => exact ⟨_, rfl, .inr ⟨line, key, "", rfl⟩, rfl, rfl⟩
  | full line key data | rested line key data =>
    exact ⟨_, rfl, .inr ⟨line, key, data, rfl⟩, rfl, rfl⟩

theorem step_head (h : b.LineOver) (hhead : Head line key data head) :
    ∃ b', head.foldlM step b = .ok b' ∧ b'.Awaits line key data ∧ b'.blocks = b.blocks ∧
      b'.nodes = b.settle.nodes := by
  have hkey : b.step ⟨.text key, line⟩ = .ok ⟨b.blocks, b.settle.nodes, .keyed line key⟩ := by
    obtain ⟨blocks, nodes, pending⟩ := b
    rcases h with h | ⟨_, _, _, h⟩ <;> obtain rfl := h <;> rfl
  cases hhead with
  | key =>
    refine ⟨⟨b.blocks, b.settle.nodes, .keyed line key⟩, ?_, .inl ⟨rfl, rfl⟩, rfl, rfl⟩
    rw [List.foldlM_cons, hkey]
    rfl
  | keyAndData =>
    refine ⟨⟨b.blocks, b.settle.nodes, .full line key data⟩, ?_, .inr (.inl rfl), rfl, rfl⟩
    rw [List.foldlM_cons, hkey]
    rfl

theorem step_breaks (h : b.Awaits line key data) (hbreaks : ∀ t ∈ breaks, t.token = .lineBreak) :
    ∃ b', breaks.foldlM step b = .ok b' ∧ b'.Awaits line key data ∧ b'.blocks = b.blocks ∧
      b'.nodes = b.nodes := by
  induction breaks generalizing b with
  | nil => exact ⟨b, rfl, h, rfl, rfl⟩
  | cons t breaks ih =>
    obtain ⟨token, l⟩ := t
    obtain rfl : token = .lineBreak := hbreaks _ List.mem_cons_self
    have hstep : b.step ⟨.lineBreak, l⟩ = .ok ⟨b.blocks, b.nodes, .rested line key data⟩ := by
      obtain ⟨blocks, nodes, pending⟩ := b
      rcases h with ⟨h, rfl⟩ | h | h <;> obtain rfl := h <;> rfl
    obtain ⟨b', hrun, hb'⟩ := ih (b := ⟨b.blocks, b.nodes, .rested line key data⟩)
      (.inr (.inr rfl)) fun t ht => hbreaks t (List.mem_cons_of_mem _ ht)
    refine ⟨b', ?_, hb'⟩
    rw [List.foldlM_cons, hstep]
    exact hrun

theorem step_opening (h : b.Awaits line key data) :
    b.step ⟨.opening, opened⟩ = .ok (b.enter opened line key data) := by
  obtain ⟨blocks, nodes, pending⟩ := b
  rcases h with ⟨h, rfl⟩ | h | h <;> obtain rfl := h <;> rfl

theorem step_closing {o : Open} {outer : List Open} (h : b.blocks = o :: outer) (closed : Nat) :
    b.step ⟨.closing, closed⟩ =
      .ok ⟨outer, ⟨o.line, o.key, o.data, b.settle.nodes.reverse⟩ :: o.before, .fresh⟩ := by
  have : b.step ⟨.closing, closed⟩ = b.leave closed := by
    obtain ⟨blocks, nodes, pending⟩ := b
    cases pending <;> rfl
  rw [this]
  unfold leave
  rw [settle_eq]
  unfold followedBy
  rw [h]

end Build

/-- The trees that tokens stand for are put behind those that are there. The induction needs that
the tokens do not go on in the line of the entry at the end. -/
theorem Forest.build {ts : List Placed} {ns : List Node} (h : Forest ts ns) (b : Build)
    (hb : b.LineOver ∨ ∀ t ∈ ts.head?, t.token = .lineBreak) :
    ∃ b', ts.foldlM Build.step b = .ok b' ∧ b'.settle = b.followedBy ns := by
  induction h generalizing b with
  | nil => exact ⟨b, rfl, b.settle_eq⟩
  | @lineBreak line ts ns h ih =>
    obtain ⟨b₁, hstep, hover, hblocks, hnodes⟩ := b.step_lineBreak line
    obtain ⟨b', hrun, hb'⟩ := ih b₁ (.inl hover)
    refine ⟨b', ?_, ?_⟩
    · rw [List.foldlM_cons, hstep]
      exact hrun
    · unfold Build.followedBy at *
      rw [hb', hblocks, hnodes]
  | @plain line key data head ts ns hhead hts h ih =>
    have hover : b.LineOver := hb.resolve_right fun hb => by
      cases hhead <;> cases hb _ rfl
    obtain ⟨b₁, hrun₁, hawaits, hblocks, hnodes⟩ := Build.step_head hover hhead
    obtain ⟨b', hrun, hb'⟩ := ih b₁ (.inr hts)
    refine ⟨b', ?_, ?_⟩
    · rw [List.foldlM_append, hrun₁]
      exact hrun
    · unfold Build.followedBy at *
      rw [hb', hblocks, Build.settle_nodes_of_awaits hawaits, hnodes]
      simp
  | @block line opened closed key data head breaks inner ts children ns hhead hbreaks hinner h
      ihinner ih =>
    have hover : b.LineOver := hb.resolve_right fun hb => by
      cases hhead <;> cases hb _ rfl
    obtain ⟨b₁, hrun₁, hawaits₁, hblocks₁, hnodes₁⟩ := Build.step_head hover hhead
    obtain ⟨b₂, hrun₂, hawaits₂, hblocks₂, hnodes₂⟩ := Build.step_breaks hawaits₁ hbreaks
    -- Inside the block the entries in front of it are put aside; the closing brace brings them back.
    obtain ⟨b₃, hrun₃, hsettle₃⟩ := ihinner (b₂.enter opened line key data) (.inl (.inl rfl))
    have hblocks₃ : b₃.blocks = ⟨opened, line, key, data, b.settle.nodes⟩ :: b.blocks := by
      rw [← b₃.settle_blocks, hsettle₃]
      unfold Build.followedBy Build.enter
      rw [hnodes₂, hnodes₁, hblocks₂, hblocks₁]
    have hnodes₃ : b₃.settle.nodes.reverse = children := by
      rw [hsettle₃]
      unfold Build.followedBy Build.enter
      simp [Build.settle_fresh]
    obtain ⟨b', hrun, hb'⟩ := ih
      ⟨b.blocks, ⟨line, key, data, children⟩ :: b.settle.nodes, .fresh⟩ (.inl (.inl rfl))
    refine ⟨b', ?_, ?_⟩
    · have hclosing := Build.step_closing hblocks₃ closed
      rw [hnodes₃] at hclosing
      simp only [List.foldlM_append, List.foldlM_cons, hrun₁, hrun₂, Build.step_opening hawaits₂,
        hrun₃, hclosing, hrun, bind, Except.bind]
    · unfold Build.followedBy at *
      rw [hb', Build.settle_fresh]
      simp

theorem Forest.nodes_eq {ts : List Placed} {ns : List Node} (h : Forest ts ns) :
    nodes ts = .ok ns := by
  obtain ⟨b, hrun, hsettle⟩ := h.build .start (.inl (.inl rfl))
  have hblocks : b.blocks = [] := by
    rw [← b.settle_blocks, hsettle, Build.followedBy, Build.start]
  have hfinish : b.finish = .ok ns := by
    unfold Build.finish
    rw [hblocks, hsettle, Build.followedBy, Build.start, Build.settle_fresh]
    simp
  unfold nodes
  rw [hrun]
  exact hfinish

/-- A text that lays out the tokens of some trees is read as these trees. -/
theorem parse_layout {ts : List Placed} {ns : List Node} {text : String}
    (hlayout : Layout 1 ts text.toList) (hforest : Forest ts ns) : parse text = .ok ns := by
  unfold parse
  rw [hlayout.tokens_eq]
  exact hforest.nodes_eq

end ZigbeeGateway.Info

import BlockchainOps.Algo.Arc4
import BlockchainOps.Lib.Fallible

/-!
# Framing follows the signature

`AbiType` is the grammar of the ARC-4 types, and `signature` renders a method with its argument
types. Both scans of a signature count brackets; on what the grammar renders they keep to the
brackets that belong together (`Enclosed`), so that the argument types come out as they went in
(`abiArgTypes_signature`), and each argument is framed for its own type (`arc4_framing`).
-/

namespace BlockchainOps.Algo

open Fallible

/-! ## Types and signatures -/

/-- The types of the ARC-4 grammar. -/
inductive AbiType
  | byte
  | bool
  | address
  | string
  | account
  | asset
  | application
  | uint (bits : ℕ)
  | ufixed (bits precision : ℕ)
  | array (element : AbiType) (length : ℕ)
  | dynamic (element : AbiType)
  | tuple (members : List AbiType)

namespace AbiType

mutual

/-- A type as it stands in a signature. -/
def render : AbiType → String
  | byte => "byte"
  | bool => "bool"
  | address => "address"
  | string => "string"
  | account => "account"
  | asset => "asset"
  | application => "application"
  | uint bits => "uint" ++ toString bits
  | ufixed bits precision => "ufixed" ++ toString bits ++ "x" ++ toString precision
  | array element length => element.render ++ "[" ++ toString length ++ "]"
  | dynamic element => element.render ++ "[" ++ "]"
  | tuple members => "(" ++ renderList members ++ ")"

/-- The types of a list, with commas between them. -/
def renderList : List AbiType → String
  | [] => ""
  | [t] => t.render
  | t :: t' :: ts => t.render ++ "," ++ renderList (t' :: ts)

end

/-- The types whose arguments are framed. -/
def isFramed : AbiType → Bool
  | dynamic byte => true
  | string => true
  | _ => false

end AbiType

/-- The signature of a method. -/
def signature (name : String) (types : List AbiType) (returns : String) : String :=
  name ++ "(" ++ AbiType.renderList types ++ ")" ++ returns

/-! ## Enclosed texts -/

/-- Both scans pass over `l` where at least `m` brackets are open, and `l` has no white space. -/
structure Enclosed (m : ℤ) (l : List Char) : Prop where
  closed : ∀ depth rest, 1 ≤ depth →
    untilClosed depth (l ++ rest) = (untilClosed depth rest).map (l ++ ·)
  whole : ∀ depth segment rest, m ≤ depth →
    splitTopLevel depth segment (l ++ rest) = splitTopLevel depth (segment ++ l) rest
  nonblank : ∀ c ∈ l, Text.isWhitespace c = false

namespace Enclosed

variable {m : ℤ} {l l' : List Char} {c : Char}

theorem nil : Enclosed m [] := by
  refine ⟨fun depth rest _ => ?_, fun depth segment rest _ => ?_, by simp⟩
  · simp
  · simp

theorem append (h : Enclosed m l) (h' : Enclosed m l') : Enclosed m (l ++ l') := by
  refine ⟨fun depth rest hd => ?_, fun depth segment rest hd => ?_, fun c hc => ?_⟩
  · rw [List.append_assoc, h.closed depth _ hd, h'.closed depth rest hd, Option.map_map]
    congr 1
    funext inner
    simp
  · rw [List.append_assoc, h.whole depth segment _ hd, h'.whole depth _ rest hd, List.append_assoc]
  · rcases List.mem_append.mp hc with hc | hc
    · exact h.nonblank c hc
    · exact h'.nonblank c hc

theorem mono {m' : ℤ} (h : Enclosed m l) (hm : m ≤ m') : Enclosed m' l :=
  ⟨h.closed, fun depth segment rest hd => h.whole depth segment rest (hm.trans hd), h.nonblank⟩

/-- A character that no scan takes notice of. -/
theorem char (hround : c ≠ '(' ∧ c ≠ ')') (hsquare : c ≠ '[' ∧ c ≠ ']') (hcomma : c ≠ ',')
    (hblank : Text.isWhitespace c = false) : Enclosed m [c] := by
  refine ⟨fun depth rest _ => ?_, fun depth segment rest _ => ?_, by simpa using hblank⟩
  · rw [List.singleton_append, untilClosed, if_neg hround.1, if_neg hround.2]
    rfl
  · rw [List.singleton_append, splitTopLevel, if_neg (by simp [hround, hsquare]),
      if_neg (by simp [hround, hsquare]), if_neg (by simp [hcomma])]

/-- A comma splits nothing inside a bracket. -/
theorem comma : Enclosed 1 [','] := by
  refine ⟨fun depth rest _ => rfl, fun depth segment rest hd => ?_, by decide⟩
  have hopen : ¬ depth = 0 := by omega
  rw [List.singleton_append, splitTopLevel, if_neg (by decide), if_neg (by decide),
    if_neg fun h => hopen h.2]

/-- A text in round brackets. -/
theorem round (h : Enclosed 1 l) : Enclosed 0 ('(' :: (l ++ [')'])) := by
  refine ⟨fun depth rest hd => ?_, fun depth segment rest hd => ?_, fun c hc => ?_⟩
  · have hne : depth + 1 ≠ 1 := by omega
    rw [List.cons_append, List.append_assoc, List.singleton_append, untilClosed, if_pos rfl,
      h.closed (depth + 1) _ (by omega), untilClosed, if_neg (by decide), if_pos rfl, if_neg hne,
      Nat.add_sub_cancel, Option.map_map, Option.map_map]
    congr 1
    funext inner
    simp
  · rw [List.cons_append, List.append_assoc, List.singleton_append, splitTopLevel,
      if_pos (by decide), h.whole (depth + 1) _ _ (by omega), splitTopLevel, if_neg (by decide),
      if_pos (by decide), Int.add_sub_cancel]
    simp
  · simp only [List.mem_cons, List.mem_append, List.not_mem_nil, or_false] at hc
    rcases hc with rfl | hc | rfl
    · decide
    · exact h.nonblank c hc
    · decide

/-- A text in square brackets; the first scan takes no notice of them. -/
theorem square (h : Enclosed 1 l) : Enclosed 0 ('[' :: (l ++ [']'])) := by
  refine ⟨fun depth rest hd => ?_, fun depth segment rest hd => ?_, fun c hc => ?_⟩
  · rw [List.cons_append, List.append_assoc, List.singleton_append, untilClosed,
      if_neg (by decide), if_neg (by decide), h.closed depth _ hd, untilClosed,
      if_neg (by decide), if_neg (by decide), Option.map_map, Option.map_map]
    congr 1
    funext inner
    simp
  · rw [List.cons_append, List.append_assoc, List.singleton_append, splitTopLevel,
      if_pos (by decide), h.whole (depth + 1) _ _ (by omega), splitTopLevel, if_neg (by decide),
      if_pos (by decide), Int.add_sub_cancel]
    simp
  · simp only [List.mem_cons, List.mem_append, List.not_mem_nil, or_false] at hc
    rcases hc with rfl | hc | rfl
    · decide
    · exact h.nonblank c hc
    · decide

/-- Letters and digits are such characters. -/
theorem alphanum (h : c.isAlphanum = true) : Enclosed m [c] := by
  have hrange : (48 ≤ c.toNat ∧ c.toNat ≤ 57) ∨ (65 ≤ c.toNat ∧ c.toNat ≤ 90) ∨
      (97 ≤ c.toNat ∧ c.toNat ≤ 122) := by
    have hcases : (decide ('A'.val ≤ c.val ∧ c.val ≤ 'Z'.val) ||
        (decide ('a'.val ≤ c.val) && decide (c.val ≤ 'z'.val)) ||
        (decide ('0'.val ≤ c.val) && decide (c.val ≤ '9'.val))) = true := h
    simp only [Bool.or_eq_true, Bool.and_eq_true, decide_eq_true_eq,
      UInt32.le_iff_toNat_le] at hcases
    have hnat : c.toNat = c.val.toNat := rfl
    have hA : 'A'.val.toNat = 65 := rfl
    have hZ : 'Z'.val.toNat = 90 := rfl
    have ha : 'a'.val.toNat = 97 := rfl
    have hz : 'z'.val.toNat = 122 := rfl
    have h0 : '0'.val.toNat = 48 := rfl
    have h9 : '9'.val.toNat = 57 := rfl
    omega
  have hne : ∀ d : Char, (d.toNat < 48 ∨ (57 < d.toNat ∧ d.toNat < 65) ∨
      (90 < d.toNat ∧ d.toNat < 97) ∨ 122 < d.toNat) → c ≠ d := by
    rintro d hd rfl
    omega
  refine char ⟨hne _ (by decide), hne _ (by decide)⟩ ⟨hne _ (by decide), hne _ (by decide)⟩
    (hne _ (by decide)) ?_
  simp only [Text.isWhitespace, Bool.or_eq_false_iff, Bool.and_eq_false_iff, decide_eq_false_iff_not]
  omega

theorem plain (h : ∀ c ∈ l, c.isAlphanum = true) : Enclosed m l := by
  induction l with
  | nil => exact nil
  | cons c l ih =>
    have hhead : Enclosed m [c] := alphanum (h c List.mem_cons_self)
    have htail : Enclosed m l := ih fun d hd => h d (List.mem_cons_of_mem c hd)
    exact hhead.append htail

theorem digits (n : ℕ) : Enclosed m (toString n).toList := by
  apply plain
  intro c hc
  have hdigit : c.isDigit = true := by
    rw [Nat.toString_eq_repr, Nat.toList_repr] at hc
    exact Nat.isDigit_of_mem_toDigits (by decide) (by decide) hc
  simp [Char.isAlphanum, hdigit]

end Enclosed

/-! ## Types -/

namespace AbiType

theorem render_ne_empty : ∀ t : AbiType, t.render.toList ≠ [] := by
  intro t
  cases t <;> simp [render]

mutual

/-- A type is passed over wherever it stands. -/
theorem enclosed_render : (t : AbiType) → Enclosed 0 t.render.toList
  | byte => Enclosed.plain (by decide)
  | bool => Enclosed.plain (by decide)
  | address => Enclosed.plain (by decide)
  | string => Enclosed.plain (by decide)
  | account => Enclosed.plain (by decide)
  | asset => Enclosed.plain (by decide)
  | application => Enclosed.plain (by decide)
  | uint bits => by
    rw [render, String.toList_append]
    exact (Enclosed.plain (by decide)).append (Enclosed.digits bits)
  | ufixed bits precision => by
    rw [render, String.toList_append, String.toList_append, String.toList_append]
    exact (((Enclosed.plain (by decide)).append (Enclosed.digits bits)).append
      (Enclosed.plain (by decide))).append (Enclosed.digits precision)
  | array element length => by
    rw [render, String.toList_append, String.toList_append, String.toList_append, List.append_assoc,
      List.append_assoc]
    exact (enclosed_render element).append (Enclosed.digits length).square
  | dynamic element => by
    rw [render, String.toList_append, String.toList_append, List.append_assoc]
    exact (enclosed_render element).append (Enclosed.square Enclosed.nil)
  | tuple members => by
    rw [render, String.toList_append, String.toList_append, List.append_assoc]
    exact (enclosed_renderList members).round

/-- A list of types is passed over inside a bracket. -/
theorem enclosed_renderList : (ts : List AbiType) → Enclosed 1 (renderList ts).toList
  | [] => Enclosed.nil
  | [t] => (enclosed_render t).mono (by omega)
  | t :: t' :: ts => by
    rw [renderList, String.toList_append, String.toList_append]
    exact (((enclosed_render t).mono (by omega)).append Enclosed.comma).append
      (enclosed_renderList (t' :: ts))

end

/-- The top-level commas are those between the types. -/
theorem splitTopLevel_renderList {ts : List AbiType} (hne : ts ≠ []) :
    splitTopLevel 0 [] (renderList ts).toList = ts.map render := by
  have htrim : ∀ t : AbiType, Text.trim (String.ofList t.render.toList) = t.render := by
    intro t
    rw [String.ofList_toList]
    exact Text.trim_eq_self t.enclosed_render.nonblank
  induction ts with
  | nil => exact absurd rfl hne
  | cons t ts ih =>
    rcases ts with _ | ⟨t', ts⟩
    · have hend := t.enclosed_render.whole 0 [] [] (by omega)
      rw [List.append_nil, List.nil_append] at hend
      show splitTopLevel 0 [] t.render.toList = [t.render]
      rw [hend, splitTopLevel, htrim]
    · rw [renderList, String.toList_append, String.toList_append, List.append_assoc,
        t.enclosed_render.whole 0 [] _ (by omega), List.nil_append]
      show splitTopLevel 0 t.render.toList (',' :: (renderList (t' :: ts)).toList) = _
      rw [splitTopLevel, if_neg (by decide), if_neg (by decide), if_pos (by decide), htrim,
        ih (by simp), List.map_cons, List.map_cons, List.map_cons]

theorem renderList_eq_empty_iff {ts : List AbiType} : (renderList ts).toList = [] ↔ ts = [] := by
  rcases ts with _ | ⟨t, _ | ⟨t', ts⟩⟩
  · simp [renderList]
  · simpa [renderList] using t.render_ne_empty
  · simp [renderList, String.toList_append]

/-- A text with a character is not one without it. -/
theorem ne_of_char {s t : String} {c : Char} (hmem : c ∈ s.toList) (hnone : c ∉ t.toList) :
    s ≠ t := by
  rintro rfl
  exact hnone hmem

theorem exists_digit (n : ℕ) : ∃ c ∈ Nat.toDigits 10 n, c.isDigit = true := by
  have hne : Nat.toDigits 10 n ≠ [] := by
    rw [← Nat.toList_repr, ne_eq, String.toList_eq_nil_iff]
    exact Nat.repr_ne_empty
  obtain ⟨c, hc⟩ := List.exists_mem_of_ne_nil _ hne
  exact ⟨c, hc, Nat.isDigit_of_mem_toDigits (by decide) (by decide) hc⟩

/-- A type with a number or with members is not rendered as a word without digits and brackets. -/
theorem render_ne_word {word : String} (hdigit : ∀ c ∈ word.toList, c.isDigit = false)
    (hround : '(' ∉ word.toList) :
    (∀ bits, (uint bits).render ≠ word) ∧ (∀ bits precision, (ufixed bits precision).render ≠ word) ∧
    (∀ element length, (array element length).render ≠ word) ∧
    ∀ members, (tuple members).render ≠ word := by
  have hnone : ∀ {c : Char}, c.isDigit = true → c ∉ word.toList := by
    intro c hc hmem
    rw [hdigit c hmem] at hc
    exact absurd hc (by simp)
  refine ⟨fun bits => ?_, fun bits precision => ?_, fun element length => ?_, fun members => ?_⟩
  · obtain ⟨c, hc, hdigit⟩ := exists_digit bits
    exact ne_of_char (by simp [render, hc]) (hnone hdigit)
  · obtain ⟨c, hc, hdigit⟩ := exists_digit bits
    exact ne_of_char (by simp [render, hc]) (hnone hdigit)
  · obtain ⟨c, hc, hdigit⟩ := exists_digit length
    exact ne_of_char (by simp [render, hc]) (hnone hdigit)
  · exact ne_of_char (by simp [render]) hround

theorem eq_byte_of_render {t : AbiType} (h : t.render = "byte") : t = byte := by
  obtain ⟨huint, hufixed, harray, htuple⟩ :=
    @render_ne_word "byte" (by decide) (by decide)
  cases t with
  | byte => rfl
  | bool | address | string | account | asset | application => exact absurd h (by decide)
  | uint bits => exact absurd h (huint bits)
  | ufixed bits precision => exact absurd h (hufixed bits precision)
  | array element length => exact absurd h (harray element length)
  | dynamic element => exact absurd h (ne_of_char (by simp [render] : '[' ∈ _) (by decide))
  | tuple members => exact absurd h (htuple members)

/-- The text of a type tells whether it is framed. -/
theorem isFramed_iff (t : AbiType) :
    t.isFramed = true ↔ t.render = "byte[]" ∨ t.render = "string" := by
  obtain ⟨huint, hufixed, harray, htuple⟩ :=
    @render_ne_word "byte[]" (by decide) (by decide)
  obtain ⟨huint', hufixed', harray', htuple'⟩ :=
    @render_ne_word "string" (by decide) (by decide)
  cases t with
  | byte | bool | address | string | account | asset | application => decide
  | uint bits => simp [isFramed, huint, huint']
  | ufixed bits precision => simp [isFramed, hufixed, hufixed']
  | array element length => simp [isFramed, harray, harray']
  | tuple members => simp [isFramed, htuple, htuple']
  | dynamic element =>
    have hstring : (dynamic element).render ≠ "string" :=
      ne_of_char (by simp [render] : '[' ∈ _) (by decide)
    have hbytes : (dynamic element).render = "byte[]" ↔ element = byte := by
      constructor
      · intro h
        have hlists := congrArg String.toList h
        rw [render, String.toList_append, String.toList_append, List.append_assoc] at hlists
        have hprefix : element.render.toList = "byte".toList :=
          List.append_cancel_right (hlists.trans (by decide : _ = "byte".toList ++ ['[', ']']))
        exact eq_byte_of_render (String.toList_inj.mp hprefix)
      · rintro rfl
        decide
    rw [hbytes]
    cases element <;> simp [isFramed, hstring]

end AbiType

/-- The argument types of a signature are those it was rendered with. -/
theorem abiArgTypes_signature {name : String} (hname : '(' ∉ name.toList) (types : List AbiType)
    (returns : String) :
    abiArgTypes (signature name types returns) = some (types.map AbiType.render) := by
  have htext : (signature name types returns).toList.dropWhile (· ≠ '(')
      = '(' :: ((AbiType.renderList types).toList ++ ')' :: returns.toList) := by
    have hbefore : ∀ c ∈ name.toList, decide (c ≠ '(') = true := by
      intro c hc
      have hne : c ≠ '(' := fun heq => hname (heq ▸ hc)
      exact decide_eq_true hne
    unfold signature
    simp only [String.toList_append, List.append_assoc]
    rw [List.dropWhile_append_of_pos hbefore]
    rfl
  have hinner : untilClosed 1 ((AbiType.renderList types).toList ++ ')' :: returns.toList)
      = some (AbiType.renderList types).toList := by
    rw [(AbiType.enclosed_renderList types).closed 1 _ (by omega), untilClosed, if_neg (by decide),
      if_pos rfl, if_pos rfl]
    simp
  have htrim : Text.trim (AbiType.renderList types) = AbiType.renderList types :=
    Text.trim_eq_self (AbiType.enclosed_renderList types).nonblank
  unfold abiArgTypes
  rw [htext]
  simp only [hinner, Option.bind_eq_bind, Option.bind_some, String.ofList_toList, htrim]
  by_cases hempty : types = []
  · rw [hempty]
    rfl
  · have hne : ¬ (AbiType.renderList types).isEmpty = true := by
      intro h
      have hnil := String.isEmpty_iff.mp h
      exact hempty (AbiType.renderList_eq_empty_iff.mp (by rw [hnil]; rfl))
    rw [if_neg hne, AbiType.splitTopLevel_renderList hempty]
    rfl

/-! ## Framing -/

/-- What becomes of an argument of a type, where it is known: its length and its bytes, or itself. -/
def framed (ty : Option AbiType) (arg : AppArg) : AppArg :=
  if ty.any AbiType.isFramed then
    .bytes (UInt8.ofNat (arg.toBytes.length / 256) :: UInt8.ofNat arg.toBytes.length :: arg.toBytes)
  else arg

/-- An argument of a type is too long to be framed. -/
def Unframeable (ty : Option AbiType) (arg : AppArg) : Prop :=
  ty.any AbiType.isFramed = true ∧ 65535 < arg.toBytes.length

theorem arc4FrameArg_render (ty : Option AbiType) (i : ℕ) (arg : AppArg) :
    (Unframeable ty arg ∧ ∃ e, arc4FrameArg (ty.map AbiType.render) i arg = .error e) ∨
    (¬ Unframeable ty arg ∧ arc4FrameArg (ty.map AbiType.render) i arg = .ok (framed ty arg)) := by
  have hkind : (ty.map AbiType.render = some "byte[]" ∨ ty.map AbiType.render = some "string") ↔
      ty.any AbiType.isFramed = true := by
    rcases ty with _ | t
    · simp
    · simpa using t.isFramed_iff.symm
  unfold arc4FrameArg Unframeable framed
  by_cases hty : ty.any AbiType.isFramed = true
  · rw [if_pos (hkind.mpr hty), if_pos hty]
    by_cases hlen : arg.toBytes.length < 2 ^ 16
    · right
      refine ⟨fun h => ?_, ?_⟩
      · have hlong := h.2
        omega
      · simp only [if_pos hlen]
        rfl
    · left
      refine ⟨⟨hty, by omega⟩, ?_⟩
      simp only [if_neg hlen]
      exact ⟨_, rfl⟩
  · right
    rw [if_neg (hty ∘ hkind.mp), if_neg hty]
    exact ⟨fun h => hty h.1, rfl⟩

/-- The arguments of a call are framed as the types of its signature say, one by one. Framing fails
exactly where an argument of a framed type is too long; otherwise each is itself, or, for a framed
type, its length in two bytes and its bytes. -/
theorem arc4_framing (name : String) (hname : ∀ c ∈ name.toList, c ≠ '(' ∧ c ≠ ')')
    (types : List AbiType) (returns : String) (args : List AppArg) :
    ((∃ e, arc4FrameArgs (some (signature name types returns)) args = .error e) ↔
      ∃ (i : ℕ) (arg : AppArg), args[i]? = some arg ∧ Unframeable types[i]? arg) ∧
    ∀ result, arc4FrameArgs (some (signature name types returns)) args = .ok result →
      result.length = args.length ∧
      ∀ i : ℕ, result[i]? = args[i]?.map (framed types[i]?) := by
  have hopen : '(' ∉ name.toList := fun h => (hname _ h).1 rfl
  have htypes : ∀ i : ℕ, (some (types.map AbiType.render) >>= fun types => types[i]?)
      = types[i]?.map AbiType.render := by
    intro i
    show (types.map AbiType.render)[i]? = _
    rw [List.getElem?_map]
  have hcases := mapM_cases (fun a : AppArg × ℕ => arc4FrameArg_render types[a.2]? a.2 a.1) args.zipIdx
  have hrun : arc4FrameArgs (some (signature name types returns)) args
      = args.zipIdx.mapM fun a => arc4FrameArg (types[a.2]?.map AbiType.render) a.2 a.1 := by
    show args.zipIdx.mapM (fun a => arc4FrameArg
      (abiArgTypes (signature name types returns) >>= fun types => types[a.2]?) a.2 a.1) = _
    simp only [abiArgTypes_signature hopen, htypes]
  rw [hrun]
  rcases hcases with ⟨⟨⟨arg, i⟩, hmem, hbad⟩, e, he⟩ | ⟨hgood, hok⟩
  · have harg : args[i]? = some arg := List.mk_mem_zipIdx_iff_getElem?.mp hmem
    rw [he]
    exact ⟨iff_of_true ⟨e, rfl⟩ ⟨i, arg, harg, hbad⟩, fun result h => absurd h (by simp)⟩
  · rw [hok]
    refine ⟨iff_of_false (by simp) ?_, fun result h => ?_⟩
    · rintro ⟨i, arg, harg, hbad⟩
      exact hgood (arg, i) (List.mk_mem_zipIdx_iff_getElem?.mpr harg) hbad
    · obtain rfl := Except.ok.inj h
      refine ⟨by simp, fun i => ?_⟩
      rw [List.getElem?_map, List.getElem?_zipIdx, Option.map_map, Nat.zero_add]
      rfl

theorem arc4_framing_nested :
    let types : List AbiType := [.tuple [.uint 64, .dynamic .byte], .dynamic .byte, .tuple []]
    let args : List AppArg := [.bytes [1], .bytes [7, 8], .bytes [], .utf8 "x"]
    signature "foo" types "void" = "foo((uint64,byte[]),byte[],())void" ∧
    ∀ result, arc4FrameArgs (some (signature "foo" types "void")) args = .ok result →
      result.length = 4 ∧ result[1]? = some (.bytes [0, 2, 7, 8]) := by
  intro types args
  refine ⟨by decide, fun result h => ?_⟩
  obtain ⟨hlength, hframed⟩ := (arc4_framing "foo" (by decide) types "void" args).2 result h
  exact ⟨hlength, hframed 1⟩

end BlockchainOps.Algo

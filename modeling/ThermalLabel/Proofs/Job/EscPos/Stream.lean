import Mathlib.Data.List.Basic
import Mathlib.Data.List.Forall2
import ThermalLabel.Job.EscPos

/-! # Page mode commands read back

A printer knows from its command table how many bytes belong to a command: a fixed number, or the
number that a length field declares. Printable bytes are a text up to the first byte that is not
printable, and every character of a content is printed as one of them (`printedAs_ascii`). A job is
read as the commands that it was made of, one packet each, whatever the contents of its elements are
(`stream_reads_back`). -/

namespace ThermalLabel.EscPos

/-! ### Reading a stream -/

/-- A command of the table with the values of its fields. -/
inductive Instruction where
  | reset
  | pageMode
  | printArea (left top width height : Nat)
  | verticalPosition (y : Nat)
  | horizontalPosition (x : Nat)
  | font (n : Nat)
  | emphasis (n : Nat)
  | text (printed : List UInt8)
  | lineFeed
  | qrModel
  | qrCell (dots : Nat)
  | qrCorrection
  | qrStore (data : List UInt8)
  | qrPrint
  | barcodeHeight (dots : Nat)
  | barcodeModule (dots : Nat)
  | code128 (data : List UInt8)
  | formFeed
  | cut
deriving DecidableEq

/-- A command as it stands in a stream. -/
structure Packet where
  bytes : List UInt8
  instruction : Instruction
deriving DecidableEq

/-- The value of a word, its low byte first. -/
def wordValue (low high : UInt8) : Nat := low.toNat + 256 * high.toNat

/-- Printable ASCII. -/
def isPrintable (b : UInt8) : Bool := 0x20 ≤ b && b ≤ 0x7E

/-- A QR function after its length field. -/
def qrFunction? : List UInt8 → Option Instruction
  | [0x31, 0x41, 0x32, 0x00] => some .qrModel
  | [0x31, 0x43, n] => some (.qrCell n.toNat)
  | [0x31, 0x45, 0x30] => some .qrCorrection
  | 0x31 :: 0x50 :: 0x30 :: data => some (.qrStore data)
  | [0x31, 0x51, 0x30] => some .qrPrint
  | _ => none

/-- A Code 128 barcode after its length byte. -/
def code128? : List UInt8 → Option Instruction
  | 0x7B :: 0x42 :: data => some (.code128 data)
  | _ => none

/-- As many bytes as a length field declares, after the bytes up to that field. -/
def counted? (read? : List UInt8 → Option Instruction) (before declared : Nat)
    (bytes : List UInt8) : Option (Instruction × Nat) :=
  if declared ≤ bytes.length then
    (read? (bytes.take declared)).map fun instruction => (instruction, before + declared)
  else none

/-- The command after an escape, and its length. -/
def escapeCommand? : List UInt8 → Option (Instruction × Nat)
  | 0x40 :: _ => some (.reset, 1)
  | 0x4C :: _ => some (.pageMode, 1)
  | 0x57 :: l :: l' :: t :: t' :: w :: w' :: h :: h' :: _ =>
    some (.printArea (wordValue l l') (wordValue t t') (wordValue w w') (wordValue h h'), 9)
  | 0x24 :: x :: x' :: _ => some (.horizontalPosition (wordValue x x'), 3)
  | 0x4D :: n :: _ => some (.font n.toNat, 2)
  | 0x45 :: n :: _ => some (.emphasis n.toNat, 2)
  | _ => none

/-- The command after a group separator, and its length. -/
def groupCommand? : List UInt8 → Option (Instruction × Nat)
  | 0x24 :: y :: y' :: _ => some (.verticalPosition (wordValue y y'), 3)
  | 0x28 :: 0x6B :: n :: n' :: bytes => counted? qrFunction? 4 (wordValue n n') bytes
  | 0x68 :: n :: _ => some (.barcodeHeight n.toNat, 2)
  | 0x77 :: n :: _ => some (.barcodeModule n.toNat, 2)
  | 0x6B :: 0x49 :: n :: bytes => counted? code128? 3 n.toNat bytes
  | 0x56 :: 0x00 :: _ => some (.cut, 2)
  | _ => none

/-- The command that a byte begins, and how many bytes after this one belong to it. -/
def next? (b : UInt8) (bytes : List UInt8) : Option (Instruction × Nat) :=
  if b = esc then escapeCommand? bytes
  else if b = gs then groupCommand? bytes
  else if b = 0x0A then some (.lineFeed, 0)
  else if b = 0x0C then some (.formFeed, 0)
  else if isPrintable b then
    let more := bytes.takeWhile isPrintable
    some (.text (b :: more), more.length)
  else none

/-- The commands of a stream, unless there are bytes in it that begin none. -/
def decode : List UInt8 → Option (List Packet)
  | [] => some []
  | b :: bytes =>
    match next? b bytes with
    | none => none
    | some (instruction, used) =>
      (decode (bytes.drop used)).map (⟨b :: bytes.take used, instruction⟩ :: ·)
termination_by bytes => bytes.length
decreasing_by simp only [List.length_drop, List.length_cons]; omega

/-! ### Bytes that are read wherever they stand -/

/-- Bytes that are read as some packets, whatever bytes come after them. -/
def Reads (bytes : List UInt8) (packets : List Packet) : Prop :=
  ∀ rest, decode (bytes ++ rest) = (decode rest).map (packets ++ ·)

theorem reads_nil : Reads [] [] := by
  intro rest
  cases h : decode rest <;> simp [h]

theorem Reads.append {bytes bytes' : List UInt8} {packets packets' : List Packet}
    (h : Reads bytes packets) (h' : Reads bytes' packets') :
    Reads (bytes ++ bytes') (packets ++ packets') := by
  intro rest
  rw [List.append_assoc, h, h', Option.map_map]
  congr 1
  funext more
  simp

theorem Reads.decode_eq {bytes : List UInt8} {packets : List Packet} (h : Reads bytes packets) :
    decode bytes = some packets := by
  have hrest := h []
  rw [List.append_nil] at hrest
  rw [hrest, decode]
  simp

theorem decode_cons {b : UInt8} {data rest : List UInt8} {instruction : Instruction}
    (h : next? b (data ++ rest) = some (instruction, data.length)) :
    decode (b :: (data ++ rest)) =
      (decode rest).map (⟨b :: data, instruction⟩ :: ·) := by
  rw [decode, h]
  simp

theorem reads_cons {b : UInt8} {data : List UInt8} {instruction : Instruction}
    (h : ∀ rest, next? b (data ++ rest) = some (instruction, data.length)) :
    Reads (b :: data) [⟨b :: data, instruction⟩] :=
  fun rest => decode_cons (h rest)

theorem wordValue_word (n : UInt16) : wordValue n.toUInt8 (n >>> 8).toUInt8 = n.toNat := by
  have hn := n.toNat_lt
  have hhigh : (n >>> 8).toNat = n.toNat / 256 := by
    simp [UInt16.toNat_shiftRight, Nat.shiftRight_eq_div_pow]
  simp only [wordValue, UInt16.toNat_toUInt8, hhigh]
  omega

/-! ### Commands -/

/-- What a command is read as. A note has no bytes, nor has a text without characters. -/
def Command.instruction? : Command → Option Instruction
  | .reset => some .reset
  | .pageMode => some .pageMode
  | .printArea width height => some (.printArea 0 0 width.toNat height.toNat)
  | .verticalPosition y => some (.verticalPosition y.toNat)
  | .horizontalPosition x => some (.horizontalPosition x.toNat)
  | .selectFont small => some (.font (flag small).toNat)
  | .emphasis on => some (.emphasis (flag on).toNat)
  | .text content => if ascii content = [] then none else some (.text (ascii content))
  | .lineFeed => some .lineFeed
  | .qrModel => some .qrModel
  | .qrCell dots => some (.qrCell dots.toNat)
  | .qrCorrection => some .qrCorrection
  | .qrStore content => some (.qrStore ((Text.utf8 content).take maxQrData))
  | .qrPrint => some .qrPrint
  | .barcodeHeight dots => some (.barcodeHeight (max dots 1).toNat)
  | .barcodeModule dots => some (.barcodeModule dots.toNat)
  | .code128 content => some (.code128 ((ascii content).take maxBarcodeData))
  | .formFeed => some .formFeed
  | .cut => some .cut
  | .note _ => none

/-- The packet of a command that has bytes. -/
def Command.packets (c : Command) : List Packet :=
  (c.instruction?.map fun instruction => ⟨c.bytes, instruction⟩).toList

theorem counted?_append {read? : List UInt8 → Option Instruction} {data : List UInt8}
    {instruction : Instruction} (h : read? data = some instruction) (before : Nat) {declared : Nat}
    (hdeclared : declared = data.length) (rest : List UInt8) :
    counted? read? before declared (data ++ rest) = some (instruction, before + data.length) := by
  have hfits : declared ≤ (data ++ rest).length := by
    rw [hdeclared, List.length_append]
    omega
  unfold counted?
  rw [if_pos hfits, hdeclared, List.take_left, h]
  rfl

theorem reads_escape {data : List UInt8} {instruction : Instruction}
    (h : ∀ rest, escapeCommand? (data ++ rest) = some (instruction, data.length)) :
    Reads (esc :: data) [⟨esc :: data, instruction⟩] :=
  reads_cons fun rest => h rest

theorem reads_group {data : List UInt8} {instruction : Instruction}
    (h : ∀ rest, groupCommand? (data ++ rest) = some (instruction, data.length)) :
    Reads (gs :: data) [⟨gs :: data, instruction⟩] :=
  reads_cons fun rest => h rest

/-- A QR function declares the number of bytes after its length, if they are not too many. -/
theorem reads_qrFunction {code : UInt8} {parameters : List UInt8} {instruction : Instruction}
    (hread : qrFunction? (0x31 :: code :: parameters) = some instruction)
    (hlength : parameters.length + 2 ≤ 65535) :
    Reads (qrFunction code parameters) [⟨qrFunction code parameters, instruction⟩] := by
  have hlt : parameters.length + 2 < 65536 := by omega
  have hdeclared : (min (parameters.length + 2) 65535).toUInt16.toNat =
      (0x31 :: code :: parameters).length := by
    rw [Nat.min_eq_left hlength]
    exact UInt16.toNat_ofNat_of_lt hlt
  refine reads_group fun rest => ?_
  have hcounted := counted?_append hread 4 hdeclared rest
  rw [← wordValue_word, Nat.add_comm 4] at hcounted
  exact hcounted

/-- A barcode declares the number of bytes after its length byte: two and those of the data. -/
theorem reads_code128 (data : List UInt8) :
    Reads (code128Bytes data) [⟨code128Bytes data, .code128 (data.take maxBarcodeData)⟩] := by
  have hfits : (data.take maxBarcodeData).length ≤ 253 := List.length_take_le maxBarcodeData data
  have hlt : (data.take maxBarcodeData).length + 2 < 256 := by omega
  have hdeclared : ((data.take maxBarcodeData).length + 2).toUInt8.toNat =
      (0x7B :: 0x42 :: data.take maxBarcodeData).length := UInt8.toNat_ofNat_of_lt hlt
  have hread : code128? (0x7B :: 0x42 :: data.take maxBarcodeData) =
      some (.code128 (data.take maxBarcodeData)) := rfl
  refine reads_group fun rest => ?_
  have hcounted := counted?_append hread 3 hdeclared rest
  rw [Nat.add_comm 3] at hcounted
  exact hcounted

theorem Command.reads (c : Command) (h : ∀ content, c ≠ .text content) :
    Reads c.bytes c.packets := by
  cases c with
  | text content => exact absurd rfl (h content)
  | note label => exact reads_nil
  | reset => exact reads_escape fun rest => rfl
  | pageMode => exact reads_escape fun rest => rfl
  | printArea width height =>
    refine reads_escape fun rest => ?_
    rw [← wordValue_word width, ← wordValue_word height]
    rfl
  | verticalPosition y =>
    refine reads_group fun rest => ?_
    rw [← wordValue_word y]
    rfl
  | horizontalPosition x =>
    refine reads_escape fun rest => ?_
    rw [← wordValue_word x]
    rfl
  | selectFont small => exact reads_escape fun rest => rfl
  | emphasis on => exact reads_escape fun rest => rfl
  | lineFeed => exact reads_cons fun rest => rfl
  | qrModel => exact reads_qrFunction rfl (by decide)
  | qrCell dots => exact reads_qrFunction rfl (by simp)
  | qrCorrection => exact reads_qrFunction rfl (by decide)
  | qrStore content =>
    refine reads_qrFunction rfl ?_
    have hfits : ((Text.utf8 content).take maxQrData).length ≤ 65532 :=
      List.length_take_le maxQrData _
    rw [List.length_cons]
    omega
  | qrPrint => exact reads_qrFunction rfl (by decide)
  | barcodeHeight dots => exact reads_group fun rest => rfl
  | barcodeModule dots => exact reads_group fun rest => rfl
  | code128 content => exact reads_code128 (ascii content)
  | formFeed => exact reads_cons fun rest => rfl
  | cut => exact reads_group fun rest => rfl

/-! ### Texts -/

/-- The byte that a character is printed as: its own code from the space (32) to the tilde (126),
and the code of the question mark (63) for any other character. -/
def PrintedAs (c : Char) (b : UInt8) : Prop :=
  b.toNat = if 32 ≤ c.toNat ∧ c.toNat ≤ 126 then c.toNat else 63

/-- A text has one byte for each of its characters. -/
theorem printedAs_ascii (text : String) : List.Forall₂ PrintedAs text.toList (ascii text) := by
  unfold ascii
  rw [List.forall₂_map_right_iff]
  refine List.forall₂_same.mpr fun c _ => ?_
  by_cases hc : 32 ≤ c.toNat ∧ c.toNat ≤ 126
  · have hlt : c.toNat < 256 := by omega
    have hvalue : c.toUInt8.toNat = c.toNat := Nat.mod_eq_of_lt hlt
    have hbool : (decide (0x20 ≤ c.toNat) && decide (c.toNat ≤ 0x7E)) = true := by simpa using hc
    rw [PrintedAs, if_pos hc, if_pos hbool, hvalue]
  · have hbool : ¬ (decide (0x20 ≤ c.toNat) && decide (c.toNat ≤ 0x7E)) = true := by simpa using hc
    rw [PrintedAs, if_neg hc, if_neg hbool]
    rfl

theorem PrintedAs.isPrintable {c : Char} {b : UInt8} (h : PrintedAs c b) :
    isPrintable b = true := by
  simp only [EscPos.isPrintable, Bool.and_eq_true, decide_eq_true_eq, UInt8.le_iff_toNat_le]
  unfold PrintedAs at h
  split at h <;> simp only [UInt8.reduceToNat] <;> omega

theorem isPrintable_of_mem_ascii {content : String} {b : UInt8} (h : b ∈ ascii content) :
    isPrintable b = true := by
  obtain ⟨i, hi, rfl⟩ := List.getElem_of_mem h
  have hprinted := printedAs_ascii content
  have hlength : i < content.toList.length := by rwa [hprinted.length_eq]
  exact (hprinted.get hlength hi).isPrintable

/-- A text ends where a byte is not printable. -/
theorem next?_printable {b : UInt8} {data : List UInt8}
    (h : ∀ b' ∈ b :: data, isPrintable b' = true) (rest : List UInt8) :
    next? b (data ++ 0x0A :: rest) = some (.text (b :: data), data.length) := by
  have hb : isPrintable b = true := h b List.mem_cons_self
  have hrun : (data ++ 0x0A :: rest).takeWhile isPrintable = data := by
    rw [List.takeWhile_append_of_pos fun b' hb' => h b' (List.mem_cons_of_mem b hb')]
    simp [isPrintable]
  have hesc : b ≠ esc := by rintro rfl; cases hb
  have hgs : b ≠ gs := by rintro rfl; cases hb
  have hlf : b ≠ 0x0A := by rintro rfl; cases hb
  have hff : b ≠ 0x0C := by rintro rfl; cases hb
  unfold next?
  rw [if_neg hesc, if_neg hgs, if_neg hlf, if_neg hff, if_pos hb, hrun]

theorem reads_textLine (content : String) :
    Reads ((Command.text content).bytes ++ Command.lineFeed.bytes)
      ((Command.text content).packets ++ Command.lineFeed.packets) := by
  have hline : Reads Command.lineFeed.bytes Command.lineFeed.packets :=
    Command.lineFeed.reads (by simp)
  have hprintable : ∀ b ∈ ascii content, isPrintable b = true := fun b => isPrintable_of_mem_ascii
  -- without characters only the line feed is read
  cases hbytes : ascii content with
  | nil => simpa [Command.packets, Command.instruction?, Command.bytes, hbytes] using hline
  | cons b data =>
    rw [hbytes] at hprintable
    have hpackets : (Command.text content).packets = [⟨b :: data, .text (b :: data)⟩] := by
      simp [Command.packets, Command.instruction?, Command.bytes, hbytes]
    have htext : (Command.text content).bytes = b :: data := hbytes
    intro rest
    have hbegin := decode_cons (next?_printable hprintable rest)
    have hend : decode (0x0A :: rest) = (decode rest).map (Command.lineFeed.packets ++ ·) :=
      hline rest
    rw [hpackets, htext, List.append_assoc, List.cons_append]
    show decode (b :: (data ++ 0x0A :: rest)) = _
    rw [hbegin, hend, Option.map_map]
    rfl

/-- Commands in which every text is ended by a line feed. -/
inductive Framed : List Command → Prop
  | nil : Framed []
  | command {c cs} (h : ∀ content, c ≠ .text content) (rest : Framed cs) : Framed (c :: cs)
  | textLine {cs} (content : String) (rest : Framed cs) :
    Framed (.text content :: .lineFeed :: cs)

namespace Framed

theorem append {cs cs' : List Command} (h : Framed cs) (h' : Framed cs') : Framed (cs ++ cs') := by
  induction h with
  | nil => exact h'
  | command hc _ ih => exact .command hc ih
  | textLine content _ ih => exact .textLine content ih

theorem reads {cs : List Command} (h : Framed cs) :
    Reads (cs.flatMap Command.bytes) (cs.flatMap Command.packets) := by
  induction h with
  | nil => exact reads_nil
  | @command c cs hc _ ih =>
    rw [List.flatMap_cons, List.flatMap_cons]
    exact (c.reads hc).append ih
  | textLine content _ ih =>
    rw [List.flatMap_cons, List.flatMap_cons, List.flatMap_cons, List.flatMap_cons,
      ← List.append_assoc, ← List.append_assoc]
    exact (reads_textLine content).append ih

end Framed

/-! ### Elements -/

/-- A number of dots held within a range. -/
def held (low high : Int) (n : Int64) : Nat := (min (max n.toInt low) high).toNat

theorem toInt_max (a b : Int64) : (max a b).toInt = max a.toInt b.toInt := by
  show (if a ≤ b then b else a).toInt = _
  by_cases h : a.toInt ≤ b.toInt
  · rw [if_pos (Int64.le_iff_toInt_le.mpr h), Int.max_eq_right h]
  · rw [if_neg (mt Int64.le_iff_toInt_le.mp h), Int.max_eq_left (by omega)]

theorem toInt_min (a b : Int64) : (min a b).toInt = min a.toInt b.toInt := by
  show (if a ≤ b then a else b).toInt = _
  by_cases h : a.toInt ≤ b.toInt
  · rw [if_pos (Int64.le_iff_toInt_le.mpr h), Int.min_eq_left h]
  · rw [if_neg (mt Int64.le_iff_toInt_le.mp h), Int.min_eq_right (by omega)]

theorem toNat_clampWord (n : Int64) : (clampWord n).toNat = held 0 65535 n := by
  have hvalue : (min (max n 0) 65535).toInt = min (max n.toInt 0) 65535 := by
    rw [toInt_min, toInt_max]
    rfl
  have hlt : (min (max n.toInt 0) 65535).toNat < 65536 := by omega
  unfold clampWord held
  rw [hvalue]
  exact UInt16.toNat_ofNat_of_lt hlt

theorem toNat_clampByte (n : Int64) : (clampByte n).toNat = held 1 255 n := by
  have hvalue : (min (max n 1) 255).toInt = min (max n.toInt 1) 255 := by
    rw [toInt_min, toInt_max]
    rfl
  have hlt : (min (max n.toInt 1) 255).toNat < 256 := by omega
  unfold clampByte held
  rw [hvalue]
  exact UInt8.toNat_ofNat_of_lt hlt

variable {α : Type} [Scalar α]

theorem framed_of_forall {cs : List Command} (h : ∀ c ∈ cs, ∀ content, c ≠ .text content) :
    Framed cs := by
  induction cs with
  | nil => exact .nil
  | cons c cs ih =>
    exact .command (h c List.mem_cons_self) (ih fun c' hc' => h c' (List.mem_cons_of_mem c hc'))

theorem framed_bodyCommands (position : Point α) (vars : Variables) (b : Body α) :
    Framed (bodyCommands position vars b) := by
  cases b with
  | text t =>
    have hfront : Framed (moveTo (dotsWord position.x) (dotsWord position.y) ++
        [.selectFont (isSmall t), .emphasis (t.fontWeight == .bold)]) :=
      framed_of_forall (by simp [moveTo])
    simpa [bodyCommands] using hfront.append (.textLine (vars.resolve t.content) .nil)
  | qrcode q => exact framed_of_forall (by simp [bodyCommands, qrCommands, moveTo])
  | barcode b => exact framed_of_forall (by simp [bodyCommands, moveTo])
  | box b => exact framed_of_forall (by simp [bodyCommands])

theorem framed_commands (d : Document α) (vars : Variables) : Framed (commands d vars) := by
  have helements : Framed (d.elements.flatMap (elementCommands vars)) := by
    induction d.elements with
    | nil => exact .nil
    | cons e elements ih => exact (framed_bodyCommands e.position vars e.body).append ih
  have hstart : Framed [.reset, .pageMode,
      .printArea (dotsWord d.labelSize.width) (dotsWord d.labelSize.height)] :=
    framed_of_forall (by simp)
  have hend : Framed [.formFeed, .cut] := framed_of_forall (by simp)
  exact (hstart.append helements).append hend

/-- The movement to a position, both axes held within a word. -/
def movement (x y : Int64) : List Instruction :=
  [.verticalPosition (held 0 65535 y), .horizontalPosition (held 0 65535 x)]

/-- What the elements of a job make a printer do. Of a content that is too long for its length
field, the printer gets the beginning. -/
def bodyInstructions (position : Point α) (vars : Variables) : Body α → List Instruction
  | .text t =>
    let printed := ascii (vars.resolve t.content)
    movement (dots position.x) (dots position.y) ++
      [.font (if isSmall t then 1 else 0), .emphasis (if t.fontWeight = .bold then 1 else 0)] ++
      (if printed = [] then [] else [.text printed]) ++ [.lineFeed]
  | .qrcode q =>
    let content := vars.resolve q.content
    let layout := QrLayout.of position q content none
    movement layout.x layout.y ++
      [.qrModel, .qrCell (held 1 255 layout.cell), .qrCorrection,
        .qrStore ((Text.utf8 content).take 65532), .qrPrint]
  | .barcode b =>
    let characters := (vars.resolve b.content).toList
    movement (dots position.x) (dots position.y) ++
      [.barcodeHeight (held 1 255 (dots b.height)), .barcodeModule 2,
        .code128 (ascii (String.ofList (characters.take 253)))]
  | .box _ => []

/-- A height that is held within a byte is no longer raised. -/
theorem toNat_max_clampByte (n : Int64) : (max (clampByte n) 1).toNat = held 1 255 n := by
  have hvalue := toNat_clampByte n
  have hpos : 1 ≤ (clampByte n).toNat := by
    rw [hvalue]
    unfold held
    omega
  show (if clampByte n ≤ 1 then 1 else clampByte n).toNat = held 1 255 n
  by_cases h : clampByte n ≤ 1
  · have hone : (clampByte n).toNat ≤ 1 := UInt8.le_iff_toNat_le.mp h
    rw [if_pos h, ← hvalue]
    exact Nat.le_antisymm hpos hone
  · rw [if_neg h, hvalue]

theorem ascii_take (n : Nat) (content : String) :
    ascii (String.ofList (content.toList.take n)) = (ascii content).take n := by
  unfold ascii
  rw [String.toList_ofList, List.map_take]

theorem toNat_flag (b : Bool) : (flag b).toNat = if b then 1 else 0 := by
  cases b <;> rfl

theorem filterMap_moveTo (x y : Int64) :
    (moveTo (clampWord x) (clampWord y)).filterMap Command.instruction? = movement x y := by
  unfold movement
  rw [← toNat_clampWord, ← toNat_clampWord]
  rfl

theorem filterMap_bodyCommands (position : Point α) (vars : Variables) (b : Body α) :
    (bodyCommands position vars b).filterMap Command.instruction? =
      bodyInstructions position vars b := by
  cases b with
  | text t =>
    have hmove := filterMap_moveTo (dots position.x) (dots position.y)
    simp only [bodyCommands, bodyInstructions, List.filterMap_append, dotsWord, hmove]
    by_cases hprinted : ascii (vars.resolve t.content) = []
    · simp [Command.instruction?, hprinted, toNat_flag]
    · simp [Command.instruction?, hprinted, toNat_flag]
  | qrcode q =>
    simp only [bodyCommands, qrCommands, bodyInstructions, List.filterMap_append, filterMap_moveTo]
    simp [Command.instruction?, toNat_clampByte, maxQrData]
  | barcode b =>
    have hmove := filterMap_moveTo (dots position.x) (dots position.y)
    simp only [bodyCommands, bodyInstructions, List.filterMap_append, dotsWord, hmove]
    simp [Command.instruction?, toNat_max_clampByte, maxBarcodeData, ascii_take, moduleWidth]
  | box b => rfl

theorem filterMap_commands (d : Document α) (vars : Variables) :
    (commands d vars).filterMap Command.instruction? =
      [.reset, .pageMode,
        .printArea 0 0 (held 0 65535 (dots d.labelSize.width))
          (held 0 65535 (dots d.labelSize.height))] ++
      d.elements.flatMap (fun e => bodyInstructions e.position vars e.body) ++
      [.formFeed, .cut] := by
  have helements : (d.elements.flatMap (elementCommands vars)).filterMap Command.instruction? =
      d.elements.flatMap fun e => bodyInstructions e.position vars e.body := by
    rw [List.filterMap_flatMap]
    exact List.flatMap_congr fun e _ => filterMap_bodyCommands e.position vars e.body
  unfold commands
  rw [List.filterMap_append, List.filterMap_append, helements, ← toNat_clampWord, ← toNat_clampWord]
  rfl

/-! ### Packets -/

theorem map_instruction_packets (cs : List Command) :
    (cs.flatMap Command.packets).map Packet.instruction = cs.filterMap Command.instruction? := by
  induction cs with
  | nil => rfl
  | cons c cs ih =>
    rw [List.flatMap_cons, List.map_append, ih]
    cases h : c.instruction? <;> simp [Command.packets, h]

/-- A command is read unless it has no bytes. -/
theorem isEmpty_bytes (c : Command) : c.bytes.isEmpty = c.instruction?.isNone := by
  cases c with
  | text content =>
    cases h : ascii content <;> simp [Command.bytes, Command.instruction?, h]
  | _ => rfl

theorem map_bytes_packets (cs : List Command) :
    (cs.flatMap Command.packets).map Packet.bytes =
      (cs.map Command.bytes).filter fun bytes => !bytes.isEmpty := by
  induction cs with
  | nil => rfl
  | cons c cs ih =>
    have hbytes := isEmpty_bytes c
    rw [List.flatMap_cons, List.map_append, ih, List.map_cons, List.filter_cons, hbytes]
    cases h : c.instruction? <;> simp [Command.packets, h]

/-- **A job is read as the commands that it was made of**, to the last byte and in order, and no
content is read as a command. What the printer gets are the contents, as much of them as their
length fields can count, and the dots of the layout, held within their fields. -/
theorem stream_reads_back (d : Document α) (vars : Variables) :
    ∃ packets, decode (compileBytes d vars) = some packets ∧
      packets.map Packet.bytes =
        ((commands d vars).map Command.bytes).filter (fun bytes => !bytes.isEmpty) ∧
      packets.map Packet.instruction =
        [.reset, .pageMode,
          .printArea 0 0 (held 0 65535 (dots d.labelSize.width))
            (held 0 65535 (dots d.labelSize.height))] ++
        d.elements.flatMap (fun e => bodyInstructions e.position vars e.body) ++
        [.formFeed, .cut] := by
  refine ⟨_, (framed_commands d vars).reads.decode_eq, map_bytes_packets _, ?_⟩
  rw [map_instruction_packets, filterMap_commands]

end ThermalLabel.EscPos

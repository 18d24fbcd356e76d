import Elchi.Common
import Elchi.HtmlTokens
namespace Elchi.Printing
open Html

structure Product where
  name : Option String
  quantity : Option Int
deriving DecidableEq, Repr
-- A row of order.print.find; any of its texts may be missing. Amounts are in tiyin.
structure PrintRow where
  orderNumber : Option String := none
  qrCodeToken : Option String := none
  createdAt : Nat := 0
  whereDeliver : String := "center"
  totalPrice : Int := 0
  comment : Option String := none
  address : Option String := none
  customerName : Option String := none
  customerPhone : Option String := none
  extraNumber : Option String := none
  regionName : Option String := none
  districtName : Option String := none
  marketName : Option String := none
  marketPhone : Option String := none
  operator : Option String := none
  products : List Product := []
deriving DecidableEq, Repr

-- What the libraries write: a number and a date as the locale shows them, and the data URL of a
-- QR code, none when it fails.
structure PlainText where
  text : String
  plain : '<' ∉ text.toList
structure AttributeText where
  text : String
  inside : '"' ∉ text.toList
structure PrintLibrary where
  now : Nat
  localeNumber : Int → PlainText
  localeDate : Nat → PlainText
  dataUrl : String → Option AttributeText

-- A text that is there and not empty.
def given (text : Option String) : Option String := text.filter (· ≠ "")
def orDash (text : String) : String := if text = "" then "-" else text

def isUzbekNumber (phone : String) : Bool :=
  let cleaned := phone.toList.filter Char.isDigit
  "998".toList.isPrefixOf cleaned && cleaned.length == 12
def formatPhoneNumber (phone : String) : String :=
  let cleaned := phone.toList.filter Char.isDigit
  let slice := fun (start stop : Nat) => String.ofList ((cleaned.drop start).take (stop - start))
  if isUzbekNumber phone then "+998 (" ++ slice 3 5 ++ ") " ++ slice 5 8 ++ "-" ++ slice 8 10 ++ "-" ++ slice 10 12 else phone
def formatCurrency (library : PrintLibrary) (amount : Int) : String := (library.localeNumber amount).text ++ " so'm"
def formatDateStr (library : PrintLibrary) (date : Nat) : String :=
  (library.localeDate (if date = 0 then library.now else date)).text
def formatRegionName (regionName : Option String) : String :=
  match given regionName with
  | none => ""
  | some region =>
    if (jsTrim region).startsWith "Qoraqal" then String.ofList (region.toList.takeWhile (· ≠ ' ')) else jsTrim region
def whereDeliverLabel (place : String) : String := if place = "address" then "UYGACHA" else "MARKAZGA"
def productString (products : List Product) : String :=
  String.intercalate ", " (products.map fun product => product.name.getD "N/A" ++ "-" ++ toString (product.quantity.getD 1))

def replaceAll (c : Char) (entity : String) (text : List Char) : List Char := text.flatMap fun d => if d = c then entity.toList else [d]
def escapeHtml (text : String) : String :=
  String.ofList (replaceAll '"' "&quot;" (replaceAll '>' "&gt;" (replaceAll '<' "&lt;" (replaceAll '&' "&amp;" text.toList))))

def piece (text : String) : Part := .template text.toList
def shown (text : String) : Part := .field text.toList

def logoPaths : List (String × String) :=
  [("M1.38591 0.141343L6.38352 3.22731C6.65167 3.39289 6.81493 3.68563 6.81493 4.00089V18.0987C6.81493 18.4185 6.64707 18.7147 6.37285 18.8788L1.37524 21.8707C0.94461 22.1285 0.386623 21.9882 0.128938 21.5574C0.0445607 21.4164 0 21.255 0 21.0906V0.914925C0 0.412862 0.40682 0.00585938 0.908658 0.00585938C1.07722 0.00585938 1.24246 0.0527689 1.38591 0.141343Z","#000"),
   ("M26.7836 0.137942L21.786 3.21357C21.5172 3.379 21.3534 3.67212 21.3534 3.98786V18.0989C21.3534 18.4186 21.5213 18.7148 21.7955 18.879L26.7931 21.8709C27.2237 22.1287 27.7817 21.9884 28.0394 21.5576C28.1238 21.4165 28.1683 21.2552 28.1683 21.0908V0.91224C28.1683 0.410177 27.7615 0.00317383 27.2597 0.00317383C27.0916 0.00317383 26.9268 0.0498263 26.7836 0.137942Z","#000"),
   ("M1.38349 0.133995L14.0842 7.9218V15.4216L0 7.35155V0.909066C0 0.407003 0.40682 0 0.908657 0C1.07626 0 1.24059 0.0463746 1.38349 0.133995Z","#444"),
   ("M26.7848 0.133995L14.0841 7.9218V15.4216L28.1683 7.35155V0.909066C28.1683 0.407003 27.7615 0 27.2597 0C27.0921 0 26.9277 0.0463746 26.7848 0.133995Z","#666")]
def beepostSvg : List Part :=
  [piece "<svg class=\"logo-svg\" viewBox=\"0 0 28.17 22\" xmlns=\"http://www.w3.org/2000/svg\">"] ++
  logoPaths.map (fun path => piece ("<path d=\"" ++ path.1 ++ "\" fill=\"" ++ path.2 ++ "\"/>")) ++ [piece "</svg>"]

-- One receipt, in the order of its template.
def orderNumberPart (row : PrintRow) : List Part :=
  match given row.orderNumber with
  | some number => [piece "<span class=\"order-no-v\">",shown ("#" ++ number),piece "</span>"]
  | none => []
def qrImage (library : PrintLibrary) (row : PrintRow) : List Part :=
  match (given row.qrCodeToken).bind library.dataUrl with
  | some url => if url.text = "" then [] else [piece ("<img class=\"qr\" src=\"" ++ url.text ++ "\"/>")]
  | none => []
def formatGiven (phone : Option String) : String :=
  match given phone with
  | some number => formatPhoneNumber number
  | none => ""
def phoneDisplay (row : PrintRow) : List Part :=
  let extraNumber := formatGiven row.extraNumber
  [shown (formatPhoneNumber (row.customerPhone.getD ""))] ++
  if extraNumber = "" then [] else [piece "<br><span style=\"font-size:8px;color:#333\">",shown extraNumber,piece "</span>"]
def contactPhonesHtml (row : PrintRow) : List Part :=
  let contactPhone := formatGiven row.marketPhone
  if contactPhone = "" then [shown "-"] else [piece "<b>",shown contactPhone,piece "</b>"]
def brandRow (row : PrintRow) : List Part :=
  [piece "\n      <div class=\"cell\">
        <div class=\"receipt\">
          <div class=\"zone-a\">
            <div class=\"left-panel\">
              <div class=\"brand-row\">
                "] ++
  beepostSvg ++
  [piece "\n                <span class=\"brand-text\">BEEPOST</span>
              </div>
              <div class=\"qr-row\">
                "] ++
  orderNumberPart row ++ [piece "\n                "]
def panels (library : PrintLibrary) (row : PrintRow) : List Part :=
  [piece "\n              </div>
              <div class=\"date-text\">",
   shown (formatDateStr library row.createdAt),
   piece "</div>
            </div>
            <div class=\"right-panel\">
              <div class=\"a-row\"><span class=\"lbl\">F.I.O:</span><span class=\"val val-name\">",
   shown (escapeHtml (row.customerName.getD "N/A")),
   piece "</span></div>
              <div class=\"a-row a-row-phone\"><span class=\"lbl\">Telefon:</span><span class=\"val val-phone\">"] ++
  phoneDisplay row ++
  [piece "</span></div>
              <div class=\"a-row a-row-manzil\"><span class=\"lbl\">Manzil:</span><span class=\"val val-manzil\">",
   shown (escapeHtml (formatRegionName row.regionName) ++ " " ++ escapeHtml (row.districtName.getD "N/A")),
   piece "</span></div>
              <div class=\"a-row\"><span class=\"lbl\">Jami:</span><span class=\"val val-price\"><b>",
   shown (formatCurrency library row.totalPrice),
   piece "</b> <span class=\"deliver-badge\">",
   shown (whereDeliverLabel row.whereDeliver),
   piece "</span></span></div>
              <div class=\"a-row a-row-last\"><span class=\"lbl\">Jo'natuvchi:</span><span class=\"val val-sender\"><b>",
   shown (escapeHtml (row.marketName.getD "N/A")),
   piece "</b> <span style=\"font-size:7px;color:#555\">/ ",
   shown (escapeHtml ((given row.operator).getD "-")),
   piece "</span></span></div>
            </div>
          </div>
          <div class=\"zone-b\">
            <div class=\"b-row b-row-compact\"><span class=\"lbl-b\">Mahsulot:</span><span class=\"val-b\">",
   shown (orDash (escapeHtml (productString row.products))),
   piece "</span></div>
            <div class=\"b-row b-row-compact\"><span class=\"lbl-b\">Mo'ljal:</span><span class=\"val-b\">",
   shown (orDash (escapeHtml (row.address.getD "-"))),
   piece "</span></div>
            <div class=\"b-row b-row-compact b-row-izoh\"><span class=\"lbl-b\">Izoh:</span><span class=\"val-b\">",
   shown (orDash (escapeHtml (row.comment.getD "-"))),
   piece "</span></div>
            <div class=\"b-row b-row-last b-row-logist\"><table class=\"logist-tbl\"><tr><td class=\"logist-td-lbl\">Muammo bo'lsa:</td><td class=\"logist-td-val\">"] ++
  contactPhonesHtml row ++
  [piece "</td></tr></table></div>
          </div>
        </div>
      </div>
    "]
def receipt (library : PrintLibrary) (row : PrintRow) : List Part := brandRow row ++ qrImage library row ++ panels library row

def styleSheet : List String :=
  ["\n",
   "  *\x7bmargin:0;padding:0;box-sizing:border-box\x7d\n",
   "  @page\x7bsize:A4;margin:3mm\x7d\n",
   "  html,body\x7bmargin:0;padding:0;background:#eee;-webkit-print-color-adjust:exact;print-color-adjust:exact\x7d\n",
   "  body\x7bfont-family:'Segoe UI',Arial,sans-serif;font-size:8px;color:#000\x7d\n",
   "  .page\x7bwidth:204mm;height:291mm;margin:0 auto;background:#fff;display:flex;flex-direction:column;page-break-after:always;",
   "overflow:hidden\x7d\n",
   "  .page:last-child\x7bpage-break-after:auto\x7d\n",
   "  .grid-row\x7bdisplay:flex;width:100%;flex:1;min-height:0;border-bottom:1px dashed #bbb\x7d\n",
   "  .grid-row:last-child\x7bborder-bottom:none\x7d\n",
   "  .cell\x7bwidth:50%;height:100%;padding:2mm 1.5mm;border-right:1px dashed #bbb\x7d\n",
   "  .cell:last-child\x7bborder-right:none\x7d\n",
   "  .cell.empty\x7bborder:none\x7d\n",
   "  .receipt\x7bwidth:100%;height:100%;border:0.5px solid #333;display:flex;flex-direction:column;overflow:hidden\x7d\n",
   "  .zone-a\x7bdisplay:flex;border-bottom:0.5px solid #333\x7d\n",
   "  .left-panel\x7bwidth:24mm;flex-shrink:0;border-right:0.5px solid #333;text-align:center;padding:2px 2px;display:flex;",
   "flex-direction:column;align-items:center;gap:2px\x7d\n",
   "  .brand-row\x7bdisplay:flex;align-items:center;justify-content:center;gap:2px\x7d\n",
   "  .logo-svg\x7bwidth:12px;height:9px;flex-shrink:0\x7d\n",
   "  .brand-text\x7bfont-size:9px;font-weight:bold;letter-spacing:0.3px\x7d\n",
   "  .qr\x7bwidth:17mm;height:17mm;display:block\x7d\n",
   "  .qr-row\x7bdisplay:flex;align-items:center;justify-content:center;gap:1px\x7d\n",
   "  .order-no-v\x7bwriting-mode:vertical-rl;transform:rotate(180deg);font-size:11px;font-weight:bold;letter-spacing:0.4px;",
   "line-height:1;white-space:nowrap\x7d\n",
   "  .date-text\x7bfont-size:9px;font-weight:bold;margin-top:auto\x7d\n",
   "  .right-panel\x7bflex:1;min-width:0;display:flex;flex-direction:column;position:relative\x7d\n",
   "  .right-panel::before\x7bcontent:'';position:absolute;left:14mm;top:0;bottom:0;border-left:0.5px solid #ddd;z-index:1\x7d\n",
   "  .a-row\x7bdisplay:flex;align-items:stretch;border-bottom:0.5px solid #ccc\x7d\n",
   "  .a-row-last\x7bborder-bottom:none;flex:1\x7d\n",
   "  .lbl\x7bwidth:14mm;flex-shrink:0;font-size:8px;font-weight:bold;padding:1px 2px;white-space:nowrap;color:#333;display:flex;",
   "align-items:center\x7d\n",
   "  .val\x7bflex:1;min-width:0;font-size:9.5px;padding:1px 2px;overflow:hidden;text-overflow:ellipsis;white-space:nowrap;display:flex;",
   "align-items:center\x7d\n",
   "  .val-name\x7bfont-size:10px;font-weight:bold\x7d\n",
   "  .a-row-phone,.a-row-manzil\x7bflex:none;height:28px;overflow:hidden\x7d\n",
   "  .val-phone\x7bfont-size:9px;font-weight:bold;white-space:normal;line-height:1.3;display:block;overflow:hidden;max-height:100%\x7d\n",
   "  .val-manzil\x7bfont-size:9px;white-space:normal;line-height:1.3;display:block;overflow:hidden;max-height:100%\x7d\n",
   "  .val-price\x7bfont-size:10px\x7d\n",
   "  .val-sender\x7bfont-size:7.5px\x7d\n",
   "  .deliver-badge\x7bfont-size:6.5px;font-weight:bold;background:#000;color:#fff;padding:0.5px 3px;border-radius:2px;margin-left:2px;",
   "vertical-align:middle\x7d\n",
   "  .zone-b\x7bflex:1;min-height:0;display:flex;flex-direction:column;position:relative\x7d\n",
   "  .zone-b::before\x7bcontent:'';position:absolute;left:14mm;top:0;bottom:0;border-left:0.5px solid #ddd;z-index:1\x7d\n",
   "  .b-row\x7bflex:1;min-height:0;display:flex;align-items:stretch;border-bottom:0.5px solid #ccc;overflow:hidden\x7d\n",
   "  .b-row-compact\x7bflex:1\x7d\n",
   "  .b-row-last\x7bborder-bottom:none\x7d\n",
   "  .lbl-b\x7bwidth:14mm;flex-shrink:0;font-size:7px;font-weight:bold;padding:1px 2px;white-space:nowrap;color:#333;display:flex;",
   "align-items:center\x7d\n",
   "  .val-b\x7bflex:1;min-width:0;font-size:8px;padding:1px 2px;overflow:hidden;text-overflow:ellipsis;white-space:nowrap;display:flex;",
   "align-items:center\x7d\n",
   "  .b-row-izoh .val-b\x7boverflow:hidden;text-overflow:ellipsis;white-space:nowrap\x7d\n",
   "  .b-row-logist\x7bbackground:#f8f8f8;align-items:center;overflow:hidden;position:relative;z-index:2\x7d\n",
   "  .logist-tbl\x7bwidth:100%;border-collapse:collapse;table-layout:fixed;background:#f8f8f8\x7d\n",
   "  .logist-td-lbl\x7bwidth:22mm;font-size:7px;font-weight:bold;color:#333;padding:2px 4px;white-space:nowrap;overflow:hidden;",
   "text-overflow:ellipsis;border-right:0.5px solid #ddd;vertical-align:middle\x7d\n",
   "  .logist-td-val\x7bfont-size:8px;padding:2px 4px;white-space:nowrap;overflow:hidden;text-overflow:ellipsis;vertical-align:middle\x7d\n",
   "  @media print\x7bhtml,body\x7bbackground:#fff!important;margin:0!important;padding:0!important\x7d.page\x7bmargin:0!important;",
   "box-shadow:none\x7d.grid-row\x7bborder-color:#ccc!important\x7d.cell\x7bborder-color:#ccc!important\x7d\x7d\n",
   "  @media screen\x7b.page\x7bbox-shadow:0 2px 8px rgba(0,0,0,0.15);margin:5mm auto\x7d\x7d\n"]
def head (count : Nat) : Part :=
  .template (("<!DOCTYPE html>\n<html>\n<head>\n<meta charset=\"utf-8\">\n<title>Beepost - Chek (").toList ++ (toString count).toList ++
    " ta)</title>\n<style>".toList ++ styleSheet.flatMap String.toList ++ "</style>\n</head>\n<body>\n".toList)
def foot : Part := piece "\n<script>window.onload=function()\x7bwindow.print();\x7d</script>\n</body>\n</html>"

def joinLines : List (List Part) → List Part
  | [] => []
  | [line] => line
  | line :: rest => line ++ piece "\n" :: joinLines rest
def emptyCell : List Part := [piece "<div class=\"cell empty\"></div>"]
-- Twelve receipts a page, in six rows of two.
def gridRow (receipts : List (List Part)) (r : Nat) : List Part :=
  [piece "<div class=\"grid-row\">"] ++ (receipts[r * 2]?).getD emptyCell ++ (receipts[r * 2 + 1]?).getD emptyCell ++ [piece "</div>"]
def sheet (receipts : List (List Part)) : List Part :=
  [piece "<div class=\"page\">"] ++ joinLines ((List.range 6).map (gridRow receipts)) ++ [piece "</div>"]
def sheets (receipts : List (List Part)) : List Part :=
  joinLines ((List.range ((receipts.length + 11) / 12)).map fun p => sheet ((receipts.drop (p * 12)).take 12))
def receiptParts (library : PrintLibrary) (rows : List PrintRow) : List Part :=
  [head rows.length] ++ sheets (rows.map (receipt library)) ++ [foot]
def renderReceiptHtml (library : PrintLibrary) (rows : List PrintRow) : String := String.ofList (page (receiptParts library rows))

end Elchi.Printing

import ApiDescription.Text.Hexadecimal

/-!
# Combining characters

The order of combining characters and the characters that pairs compose to, by Unicode 14.
Syllables of Hangul compose by a rule of their own and are not in the table.
-/

namespace ApiDescription.Text

/-- Combining classes and the spans of code points that have them, `class:span,span`; other code
points have class zero. -/
def combiningText : String := "
  1:334-4,199c,e-6,3ea-1,5-2,b-1,4-1,e94e,60b7-4,51aa,14c9-2 6:16ff0-1
  7:93c,80,80,80,80,100,80,37b,afd,b2,51,8d7c,6707,b9,57,6c,b3,52-1,10a,7d,fd,f7,183,109,3ff 7:1e94a
    8:3099-1
  9:94d,80,80,80,80,80,80,80,6e-1,11,7d,70,80,ca,b5-1,6da-1,1f,9e,28e,e4,66-1,47-1,118c,7a87
  9:a82c,98,8f,6d,136,f7,5e52,607,2a,f,3a,7a-1,8c,75,b5,63,f5,80,fd,80,77,75,10e,104-1,a2,54
    9:11a47,52,1a6,105-1,52
  a:5b0 b:5b1 c:5b2 d:5b3 e:5b4 f:5b5 10:5b6 11:5b7 12:5b8,f 13:5b9-1 14:5bb 15:5bc 16:5bd 17:5bf
    18:5c1 19:5c2
  1a:fb1e 1b:64b,2a5 1c:64c,2a5 1d:64d,2a5 1e:618,36 1f:619,36 20:61a,36 21:651 22:652 23:670 24:711
    54:c55 5b:c56
  67:e38-1 6b:e48-3 76:eb8-1 7a:ec8-3 81:f71 82:f72,8-3,3 84:f74 ca:321-1,5-1,1aa8 d6:1dce
    d8:31b,c1e,1c22c-1,8-4
  da:1dfa,1230 dc:316-3,3-4,3-3,3-a,6-3,b-2,4-1,5-3,3-1,237,5,5,7-5,3,1b,90-1,6,3,84,7,3,44,3,3-2,2-1,2,4
  dc:744,2,2,aa,b,5c-2,3e-2,34-4,10,3,3,4-2,7,3-1,58,5c6-1,1c,2,8f,c7,8ae,dd,67,36-5,3,2-1
  dc:1ac3-1,6,a2,169-4,3-3,e,d5,8,5,2a,4,2,2e9,4-3,883c-2,187,5373-6,3d0,e3,72d,2d,ac,460-1
  dc:10f4b,2-3,33,2,c1f6-7,8-1,1745-6 de:59a,13,138c,16f4 e0:302e-1 e2:1d16d e4:5ae,12fb,54e-1,1233
  e6:300-14,29-7,2,4-2,4-2,5,4,8-c,114-4,10b-3,2-2,3-5,7-1,2-1,3,15,4c-7,3c-1,3-4,2-1,78-6
  e6:6df-3,2,3-1,3-1,44,2-1,2-1,4,3,2-2,2,2,2,2-1,a1-6,2,23-3,2-8,2-2,2-4,6b,4-3,2b-4,6-d
  e6:8e4-1,2-1,2-2,7-2,2-1,3-4,52,2-1,aa,584-1,3-1,3d6-2,47e,15d,dd,5e-7,34-4,7-1,5-1,3-4
  e6:1acb-3,9d,2-6,15d-2,8-1,5,14,4-1,c7-1,2-6,2-1,5-24,6,3,2d2-1,3-3,4-1,5,6,2,7,bff-2
  e6:2de0-1f,7870,5-9,21-1,51-1,1ef-11,1bf,2-1,4-1,6-1,2,535f-6,8-1,547-4,695,29,ad,23f-3
  e6:10eab-1,9c-2,2,36,2,17c-2,264-6,4-4,ea,56d2-6,664f-4,21-3,95-2,dbc-6,2-10,3-6,2-1,2-4
    e6:1e130-6,178,3e-3,655-5
  e8:315,5,3e,1a9e,1236 e9:35c,3,3,1a9a ea:35d-1,2-1,1a6c f0:345
"

def combiningClasses : List ((Nat × Nat) × Nat) :=
  (hexTable combiningText).flatMap fun entry =>
    (rangesFrom 0 ((splitAtEvery ',' entry.2).map hexSpan)).map fun range => (range, entry.1.1)

def combiningClass (point : Nat) : Nat :=
  match combiningClasses.find? fun entry => entry.1.1 ≤ point && point ≤ entry.1.2 with
  | some entry => entry.2
  | none => 0

/-- Compositions by the second code point of a pair: every other character is the first one of a
pair, and the composite follows it.  What is composed comes before the pairs that it begins. -/
def compositionText : String := "
  300:AÀEÈIÌOÒUÙaàeèiìoòuùNǸnǹЕЀИЍеѐиѝ 300:WẀwẁYỲyỳαὰεὲηὴιὶοὸυὺωὼΑᾺ 300:ΕῈΗῊ᾿῍ΙῚ῾῝ΥῪ¨῭ΟῸΩῺ
    301:AÁEÉIÍ
  301:OÓUÚYÝaáeéiíoóuúyýCĆcćLĹlĺNŃnńRŔ 301:rŕSŚsśZŹzźGǴgǵÆǼæǽØǾøǿ¨΅ΑΆΕΈ
    301:ΗΉΙΊΟΌΥΎΩΏαάεέηήιίοόυύωώϒϓ
  301:ГЃКЌгѓкќKḰkḱMḾmḿPṔpṕWẂwẃ᾿῎ 301:῾῞ 302:AÂEÊIÎOÔUÛaâeêiîoôuûCĈcĉGĜgĝ
    302:HĤhĥJĴjĵSŜsŝWŴwŵYŶyŷZẐzẑ 303:AÃNÑ
  303:OÕaãnñoõIĨiĩUŨuũVṼvṽEẼeẽYỸyỹ 304:AĀaāEĒeēIĪiīOŌoōUŪuūÆǢæǣYȲyȳИӢ 304:иӣУӮуӯGḠgḡαᾱΑᾹιῑΙῙυῡΥῩ
  306:AĂaăEĔeĕGĞgğIĬiĭOŎoŏUŬuŭУЎИЙ 306:ийуўЖӁжӂАӐаӑЕӖеӗαᾰΑᾸιῐΙῘ 306:υῠΥῨ
    307:CĊcċEĖeėGĠgġIİZŻzżAȦaȧOȮ
  307:oȯBḂbḃDḊdḋFḞfḟHḢhḣMṀmṁNṄnṅ 307:PṖpṗRṘrṙSṠsṡTṪtṫWẆwẇXẊxẋYẎ 307:yẏſẛ
    308:AÄEËIÏOÖUÜaäeëiïoöuüyÿYŸΙΪ
  308:ΥΫιϊυϋϒϔЕЁІЇеёіїАӒаӓӘӚәӛЖӜ 308:жӝЗӞзӟИӤиӥОӦоӧӨӪөӫЭӬэӭУӰуӱ 308:ЧӴчӵЫӸыӹHḦhḧWẄwẅXẌxẍtẗ
  309:AẢaảEẺeẻIỈiỉOỎoỏUỦuủYỶyỷ 30a:AÅaåUŮuůwẘyẙ 30b:OŐoőUŰuűУӲуӳ 30c:CČcčDĎdďEĚeěLĽlľNŇnňRŘrřSŠsšTŤ
  30c:tťZŽzžAǍaǎIǏiǐOǑoǒUǓuǔGǦgǧKǨkǩ 30c:ƷǮʒǯjǰHȞhȟ 30f:AȀaȁEȄeȅIȈiȉOȌoȍRȐ 30f:rȑUȔuȕѴѶѵѷ
    311:AȂaȃEȆeȇIȊiȋOȎoȏRȒ
  311:rȓUȖuȗ 313:αἀΑἈεἐΕἘηἠΗἨιἰΙἸοὀ 313:ΟὈυὐωὠΩὨρῤ 314:αἁΑἉεἑΕἙηἡΗἩ 314:ιἱΙἹοὁΟὉυὑΥὙωὡΩὩρῥΡῬ
    31b:OƠoơUƯuư
  323:BḄbḅDḌdḍHḤhḥKḲkḳLḶ 323:lḷMṂmṃNṆnṇRṚrṛSṢsṣTṬtṭVṾvṿ 323:WẈwẉZẒzẓAẠaạEẸeẹIỊiịOỌoọUỤ 323:uụYỴyỵ
    324:UṲuṳ 325:AḀaḁ
  326:SȘsșTȚtț 327:CÇcçGĢgģKĶkķLĻlļNŅnņRŖrŗSŞsşTŢ 327:tţEȨeȩDḐdḑHḨhḩ 328:AĄaąEĘeęIĮiįUŲ 328:uųOǪoǫ
  32d:DḒdḓEḘeḙLḼlḽNṊnṋTṰtṱ 32d:UṶuṷ 32e:HḪhḫ 330:EḚeḛIḬiḭUṴuṵ 331:BḆbḇDḎdḏKḴkḵLḺlḻNṈnṉRṞrṟTṮ
    331:tṯZẔzẕhẖ
  338:←↚→↛↔↮⇐⇍⇔⇎⇒⇏∃∄ 338:∈∉∋∌∣∤∥∦∼≁≃≄≅≇≈≉=≠≡≢ 338:≍≭<≮>≯≤≰≥≱≲≴≳≵≶≸≷≹≺⊀≻⊁ 338:⊂⊄⊃⊅⊆⊈⊇⊉⊢⊬⊨⊭⊩⊮⊫⊯≼⋠≽⋡
    338:⊑⋢⊒⋣⊲⋪⊳⋫⊴⋬⊵⋭
  342:αᾶ¨῁ηῆ᾿῏ 342:ιῖ῾῟υῦωῶ 345:αᾳΑᾼηῃΗῌωῳΩῼ 653:اآ 654:اأوؤيئەۀہۂےۓ 655:اإ 93c:नऩरऱळऴ 9be:েো 9d7:েৌ
    b3e:େୋ b56:େୈ
  b57:େୌ bbe:ெொேோ bd7:ஒஔெௌ c56:ెై cc2:ೆೊ cd5:ಿೀೆೇ cd6:ೆೈ d3e:െൊേോ d57:െൌ dca:ෙේ dcf:ෙො ddf:ෙෞ
    102e:ဥဦ
  1b35:ᬅᬆᬇᬈᬉᬊᬋᬌᬍᬎᬑᬒᬺᬻ 1b35:ᬼᬽᬾᭀᬿᭁᭂᭃ 3099:かがきぎくぐけげこごさざ 3099:しじすずせぜそぞただちぢつづてでとどはば
    3099:ひびふぶへべほぼうゔゝゞカガキギクグケゲ
  3099:コゴサザシジスズセゼソゾタダチヂツヅテデ 3099:トドハバヒビフブヘベホボウヴワヷヰヸヱヹ 3099:ヲヺヽヾ 309a:はぱひぴふぷへぺほぽハパヒピフプ 309a:ヘペホポ
    110ba:𑂙𑂚𑂛𑂜𑂥𑂫
  11127:𑄱𑄮𑄲𑄯 1133e:𑍇𑍋 11357:𑍇𑍌 114b0:𑒹𑒼 114ba:𑒹𑒻 114bd:𑒹𑒾 115af:𑖸𑖺𑖹𑖻 11930:𑤵𑤸 300:ÜǛüǜĒḔēḕŌṐōṑÂẦ
  300:âầĂẰăằÊỀêềÔỒôồƠỜơờƯỪưừἀἂ 300:ἁἃἈἊἉἋἐἒἑἓἘἚἙἛἠἢἡἣἨἪ 300:ἩἫἰἲἱἳἸἺἹἻὀὂὁὃὈὊὉὋὐὒ
    300:ὑὓὙὛὠὢὡὣὨὪὩὫϊῒϋῢ 301:ÜǗüǘÅǺ
  301:åǻϊΐϋΰÇḈçḉĒḖēḗÏḮïḯÕṌõṍŌṒōṓ 301:ŨṸũṹÂẤâấĂẮăắÊẾêếÔỐôốƠỚơớ 301:ƯỨưứἀἄἁἅἈἌἉἍἐἔἑἕἘἜἙἝ
    301:ἠἤἡἥἨἬἩἭἰἴἱἵἸἼἹἽὀὄὁὅ
  301:ὈὌὉὍὐὔὑὕὙὝὠὤὡὥὨὬὩὭ 302:ẠẬạậẸỆẹệỌỘọộ 303:ÂẪâẫĂẴăẵÊỄ 303:êễÔỖôỗƠỠơỡƯỮưữ 304:ÜǕüǖÄǞäǟȦǠ
  304:ȧǡǪǬǫǭÖȪöȫÕȬõȭȮȰȯȱḶḸḷḹṚṜ 304:ṛṝ 306:ȨḜȩḝẠẶạặ 307:ŚṤśṥŠṦšṧṢṨ 307:ṣṩ 308:ÕṎõṏŪṺūṻ
    309:ÂẨâẩĂẲăẳÊỂêể
  309:ÔỔôổƠỞơởƯỬưử 30c:ÜǙüǚ 323:ƠỢơợƯỰ 323:ưự 342:ἀἆἁἇἈἎἉἏἠἦἡἧἨἮἩἯἰἶ 342:ἱἷἸἾἹἿὐὖὑὗὙὟὠὦὡὧὨὮὩὯ
    342:ϊῗϋῧ
  345:ἀᾀἁᾁἈᾈἉᾉἠᾐἡᾑἨᾘἩᾙ 345:ὠᾠὡᾡὨᾨὩᾩὰᾲάᾴᾶᾷὴῂήῄῆῇ 345:ὼῲώῴῶῷ cd5:ೊೋ dca:ොෝ 345:ἂᾂἃᾃἄᾄἅᾅἆᾆ
    345:ἇᾇἊᾊἋᾋἌᾌἍᾍἎᾎἏᾏἢᾒἣᾓἤᾔ
  345:ἥᾕἦᾖἧᾗἪᾚἫᾛἬᾜἭᾝἮᾞἯᾟὢᾢ 345:ὣᾣὤᾤὥᾥὦᾦὧᾧὪᾪὫᾫὬᾬὭᾭὮᾮ 345:Ὧᾯ
"

/-- A composition of two code points. -/
structure Composition where
  first : Nat
  second : Nat
  composite : Nat

def compositionsWith (second : Nat) : List Char → List Composition
  | first :: composite :: rest =>
    { first := first.toNat, second, composite := composite.toNat } :: compositionsWith second rest
  | _ => []

def compositions : List Composition :=
  (hexTable compositionText).flatMap fun entry => compositionsWith entry.1.1 entry.2

/-- The code points that pairs compose to, taken apart as far as possible. -/
def composedParts : List (Nat × List Nat) :=
  compositions.foldl (fun known pair =>
    (pair.composite, (known.lookup pair.first).getD [pair.first] ++ [pair.second]) :: known) []

def composite? (first second : Nat) : Option Nat :=
  (compositions.find? fun entry => entry.first == first && entry.second == second).map
    (·.composite)

end ApiDescription.Text

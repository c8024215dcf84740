import ApiDescription.Text.Hexadecimal

/-!
# Decompositions

What a character is made of by the compatibility decompositions of Unicode 14, taken apart as far as
possible.  The table has the characters of identifiers and those that hide a delimiter of an
address.  Characters that pairs compose to and syllables of Hangul are not in it.
-/

namespace ApiDescription.Text

/-- Decompositions: `first:parts|parts` of characters in a row, `first:|parts` if each has a single
part, or `first-more:part` of a span of characters whose parts are one. -/
def decompositionText : String := "
  aa:a b5:μ ba:o 132:IJ|ij 13f:L·|l· 149:ʼn 17f:s 1c4:DŽ|Dž|dž|LJ|Lj|lj|NJ|Nj|nj 1f1:DZ|Dz|dz
    2b0:|hɦjrɹɻʁwy
  2e0:|ɣlsxʕ 340-1:̀ 343:̓|̈́ 374:ʹ 387:· 3d0:β|θ|Υ|Ύ|Ϋ|φ|π 3f0:|κρς 3f4:|Θε 3f9:Σ 587:եւ
    675:اٴ|وٴ|ۇٴ|يٴ
  958:क़|ख़|ग़|ज़|ड़|ढ़|फ़|य़ 9dc:ড়|ঢ় 9df:য় a33:ਲ਼ a36:ਸ਼ a59:ਖ਼|ਗ਼|ਜ਼ a5e:ਫ਼ b5c:ଡ଼|ଢ଼ e33:ํา
    eb3:ໍາ edc:ຫນ|ຫມ f43:གྷ
  f4d:ཌྷ f52:དྷ f57:བྷ f5c:ཛྷ f69:ཀྵ f73:ཱི f75:ཱུ|ྲྀ|ྲཱྀ|ླྀ|ླཱྀ f81:ཱྀ f93:ྒྷ f9d:ྜྷ fa2:ྡྷ fa7:ྦྷ
    fac:ྫྷ fb9:ྐྵ 10fc:ნ
  1d2c:|AÆB 1d30:|DEƎGHIJKLMN 1d3c:|OȢPRTUWaɐɑᴂbdeəɛɜg 1d4f:|kmŋoɔᴖᴗptuᴝɯvᴥβγδφχiruvβγρφχ 1d78:н
  1d9b:|ɒcɕðɜfɟɡɥɨɩɪᵻʝɭᶅʟɱɰɲɳɴɵɸʂʃƫʉʊᴜʋʌzʐʑʒθ 1e9a:aʾ|ṡ 1f71:ά 1f73:έ 1f75:ή 1f77:ί 1f79:ό
    1f7b:ύ 1f7d:ώ
  1fbb:Ά 1fbe:ι 1fc9:Έ 1fcb:Ή 1fd3:ΐ 1fdb:Ί 1fe3:ΰ 1feb:Ύ 1ff9:Ό 1ffb:Ώ 2047:??|?!|!?
    2071:i 207f:n
  2090:|aeoxəhklmnpst 2100:a/c|a/s|C 2105:c/o|c/u|Ɛ 210a:|gHHHhħIILl 2115:N 2119:|PQRRR 2124:Z
    2126:Ω 2128:Z
  212a:K|Å|B|C 212f:|eEF 2133:|Moאבגדi 213c:|πγΓΠ 2145:|Ddeij
  2160:I|II|III|IV|V|VI|VII|VIII|IX|X|XI|XII|L|C|D|M|i|ii|iii|iv|v|vi|vii|viii|ix|x|xi|xii|l|c|d|m
    2a74:::=
  2c7c:|jV 2d6f:ⵡ 3038:|十卄卅 309f:より 30ff:コト 3131:|ᄀᄁᆪᄂᆬᆭᄃᄄᄅᆰᆱᆲᆳᆴᆵᄚᄆᄇᄈᄡ 3145-9:ᄉ 314f-14:ᅡ
  3164:|ᅠᄔᄕᇇᇈᇌᇎᇓᇗᇙᄜᇝᇟᄝᄞᄠᄢᄣᄧᄩᄫᄬᄭᄮᄯᄲᄶᅀᅇᅌᇱᇲᅗᅘᅙᆄᆅᆈᆑᆒᆔᆞᆡ a69c:|ъь a770:ꝯ a7f2:|CFQ
  a7f8:|Ħœ ab5c:|ꜧꬷɫꭒ ab69:ʍ f900:|豈更車賈滑串句龜龜契金喇奈懶癩羅蘿螺裸邏樂洛烙珞落酪駱亂卵欄爛蘭鸞嵐濫藍
  f924:|襤拉臘蠟廊朗浪狼郎來冷勞擄櫓爐盧老蘆虜路露魯鷺碌祿綠菉錄鹿論壟弄籠聾牢磊賂雷壘屢樓淚漏累縷陋勒肋凜凌
  f956:|稜綾菱陵讀拏樂諾丹寧怒率異北磻便復不泌數索參塞省葉說殺辰沈拾若掠略亮兩凉梁糧良諒量勵呂女廬旅濾礪閭驪
  f988:|麗黎力曆歷轢年憐戀撚漣煉璉秊練聯輦蓮連鍊列劣咽烈裂說廉念捻殮簾獵令囹寧嶺怜玲瑩羚聆鈴零靈領例禮醴隸惡
  f9ba:|了僚寮尿料樂燎療蓼遼龍暈阮劉杻柳流溜琉留硫紐類六戮陸倫崙淪輪律慄栗率隆利吏履易李梨泥理痢罹裏裡里離匿
  f9ec:|溺吝燐璘藺隣鱗麟林淋臨立笠粒狀炙識什茶刺切度拓糖宅洞暴輻行降見廓兀嗀 fa10:塚 fa12:晴
  fa15:|凞猪益礼神祥福靖精羽 fa20:蘒 fa22:諸 fa25:|逸都 fa2a:|飯飼館鶴郞隷侮僧免勉勤卑喝嘆器塀墨層屮悔慨憎懲
  fa41:|敏既暑梅海渚漢煮爫琢碑社祉祈祐祖祝禍禎穀突節練縉繁署者臭艹艹著褐視謁謹賓贈辶逸難響頻恵𤋮舘
  fa70:|並况全侀充冀勇勺喝啕喙嗢塚墳奄奔婢嬨廒廙彩徭惘慎愈憎慠懲戴揄搜摒敖晴朗望杖歹殺流滛滋漢瀞煮瞧爵犯猪瑱
  faa2:|甆画瘝瘟益盛直睊着磌窱節类絛練缾者荒華蝹襁覆視調諸請謁諾諭謹變贈輸遲醙鉶陼難靖韛響頋頻鬒龜𢡊𢡄𣏕㮝䀘
  fad4:|䀹𥉉𥳐𧻓齃龎 fb00:ff|fi|fl|ffi|ffl|st|st fb13:մն|մե|մի|վն|մխ fb1d:יִ fb1f:ײַ fb20:|עאדהכלםרת
  fb2a:שׁ|שׂ|שּׁ|שּׂ|אַ|אָ|אּ|בּ|גּ|דּ|הּ|וּ|זּ fb38:טּ|יּ|ךּ|כּ|לּ fb3e:מּ fb40:נּ|סּ fb43:ףּ|פּ
    fb46:צּ|קּ|רּ|שּ|תּ|וֹ|בֿ|כֿ|פֿ|אל
  fb50:|ٱٱٻٻٻٻپپپپڀڀڀڀٺٺٺٺٿٿٿٿٹٹٹٹڤڤڤڤڦڦڦڦڄڄڄڄڃڃڃڃچچچچڇڇڇڇڍڍڌڌڎڎڈڈژژڑڑککککگگگگڳڳڳڳڱڱڱڱںںڻڻڻڻ
  fba4:ۀ|ۀ|ہ|ہ|ہ|ہ|ھ|ھ|ھ|ھ|ے|ے|ۓ|ۓ fbd3:|ڭڭڭڭۇۇۆۆۈۈ
    fbdd:ۇٴ|ۋ|ۋ|ۅ|ۅ|ۉ|ۉ|ې|ې|ې|ې|ى|ى|ئا|ئا|ئە|ئە|ئو|ئو|ئۇ|ئۇ
  fbf2:ئۆ|ئۆ|ئۈ|ئۈ|ئې|ئې|ئې|ئى|ئى|ئى|ی|ی|ی|ی|ئج|ئح|ئم|ئى|ئي|بج|بح|بخ|بم|بى|بي|تج|تح|تخ|تم|تى|تي|ثج|ثم|ثى|ثي
  fc15:جح|جم|حج|حم|خج|خح|خم|سج|سح|سخ|سم|صح|صم|ضج|ضح|ضخ|ضم|طح|طم|ظم|عج|عم|غج|غم|فج|فح|فخ|فم|فى|في|قح|قم|قى|قي
  fc37:كا|كج|كح|كخ|كل|كم|كى|كي|لج|لح|لخ|لم|لى|لي|مج|مح|مخ|مم|مى|مي|نج|نح|نخ|نم|نى|ني|هج|هم|هى|هي|يج|يح|يخ|يم
  fc59:يى|يي|ذٰ|رٰ|ىٰ fc64:ئر|ئز|ئم|ئن|ئى|ئي|بر|بز|بم|بن|بى|بي|تر|تز|تم|تن|تى|تي|ثر|ثز|ثم|ثن|ثى|ثي|فى|في|قى|قي
  fc80:كا|كل|كم|كى|كي|لم|لى|لي|ما|مم|نر|نز|نم|نن|نى|ني|ىٰ|ير|يز|يم|ين|يى|يي|ئج|ئح|ئخ|ئم|ئه|بج|بح|بخ|بم|به|تج
  fca2:تح|تخ|تم|ته|ثم|جح|جم|حج|حم|خج|خم|سج|سح|سخ|سم|صح|صخ|صم|ضج|ضح|ضخ|ضم|طح|ظم|عج|عم|غج|غم|فج|فح|فخ|فم|قح|قم
  fcc4:كج|كح|كخ|كل|كم|لج|لح|لخ|لم|له|مج|مح|مخ|مم|نج|نح|نخ|نم|نه|هج|هم|هٰ|يج|يح|يخ|يم|يه|ئم|ئه|بم|به|تم|ته|ثم
  fce6:ثه|سم|سه|شم|شه|كل|كم|لم|نم|نه|يم|يه|ـَّ|ـُّ|ـِّ|طى|طي|عى|عي|غى|غي|سى|سي|شى|شي|حى|حي|جى|جي|خى|خي|صى|صي|ضى|ضي
  fd09:شج|شح|شخ|شم|شر|سر|صر|ضر|طى|طي|عى|عي|غى|غي|سى|سي|شى|شي|حى|حي|جى|جي|خى|خي|صى|صي|ضى|ضي|شج|شح|شخ|شم|شر|سر
  fd2b:صر|ضر|شج|شح|شخ|شم|سه|شه|طم|سج|سح|سخ|شج|شح|شخ|طم|ظم|اً|اً
    fd50:تجم|تحج|تحج|تحم|تخم|تمج|تمح|تمخ|جمح|جمح
  fd5a:حمي|حمى|سحج|سجح|سجى|سمح|سمح|سمج|سمم|سمم|صحح|صحح|صمم|شحم|شحم|شجي|شمخ|شمخ|شمم|شمم|ضحى|ضخم|ضخم|طمح|طمح
  fd73:طمم|طمي|عجم|عمم|عمم|عمى|غمم|غمي|غمى|فخم|فخم|قمح|قمم|لحم|لحي|لحى|لجج|لجج|لخم|لخم|لمح|لمح|محج|محم|محي
  fd8c:مجح|مجم|مخج|مخم fd92:مجخ|همج|همم|نحم|نحى|نجم|نجم|نجى|نمي|نمى|يمم|يمم|بخي|تجي|تجى|تخي|تخى|تمي|تمى|جمي
  fda6:جحى|جمى|سخى|صحي|شحي|ضحي|لجي|لمي|يحي|يجي|يمي|ممي|قمي|نحي|قمح|لحم|عمي|كمي|نجح|مخي|لجم|كمم|لجم|نجح|جحي
  fdbf:حجي|مجي|فمي|بحي|كمم|عجم|صمم|سخي|نجي fdf0:صلے|قلے|الله|اكبر|محمد|صلعم|رسول|عليه|وسلم|صلى
    fe13:: fe16:?
  fe33:|__ fe4d:|___ fe55:|:? fe5f:# fe6b:@ fe71:ـً fe77:ـَ fe79:ـُ fe7b:ـِ fe7d:ـّ
  fe7f:ـْ|ء|آ|آ|أ|أ|ؤ|ؤ|إ|إ|ئ|ئ|ئ|ئ
    fe8d:|ااببببةةتتتتثثثثججججححححخخخخددذذررززسسسسششششصصصصضضضضططططظظظظععععغغغ
  fed0:|غففففققققككككللللممممننننههههووىىيييي fef5:لآ|لآ|لأ|لأ|لإ|لإ|لا|لا ff03:# ff0f-b:/
    ff1f-1b:? ff3f:_
  ff41-19:a ff66:|ヲァィゥェォャュョッーアイウエオカキクケコサシスセソタチツテトナニヌネノハヒフヘホマミムメ
  ff93:|モヤユヨラリルレロワン゙゚ᅠᄀᄁᆪᄂᆬᆭᄃᄄᄅᆰᆱᆲᆳᆴᆵᄚᄆᄇᄈᄡ ffb5-9:ᄉ ffc2-5:ᅡ ffca-5:ᅧ ffd2-5:ᅭ ffda-2:ᅳ
  10781:|ːˑæʙɓ 10787:|ʣꭦʥʤɖɗᶑɘɞʩɤɢɠʛħʜɧʄʪʫɬ𝼄ꞎɮ𝼅ʎ𝼆øɶɷqɺ𝼈ɽɾʀʨʦꭧʧʈⱱ 107b2:|ʏʡʢʘǀǁǂ𝼊𝼞 1d400-19:A
    1d41a-19:a
  1d434-19:A 1d44e-6:a 1d456-11:i 1d468-19:A 1d482-19:a 1d49c:A 1d49e-1:C 1d4a2:G 1d4a5-1:J
    1d4a9-3:N
  1d4ae:|STUVWXYZabcd 1d4bb:f 1d4bd-6:h 1d4c5-a:p 1d4d0-19:A 1d4ea-19:a 1d504-1:A 1d507-3:D
    1d50d-7:J
  1d516-6:S 1d51e-19:a 1d538-1:A 1d53b-3:D 1d540-4:I 1d546:O 1d54a-6:S 1d552-19:a 1d56c-19:A
    1d586-19:a
  1d5a0-19:A 1d5ba-19:a 1d5d4-19:A 1d5ee-19:a 1d608-19:A 1d622-19:a 1d63c-19:A 1d656-19:a 1d670-19:A
  1d68a-19:a 1d6a4:|ıȷ 1d6a8-10:Α 1d6b9:Θ 1d6ba-6:Σ 1d6c2-18:α 1d6dc:|εθκφρπ 1d6e2-10:Α 1d6f3:Θ
    1d6f4-6:Σ
  1d6fc-18:α 1d716:|εθκφρπ 1d71c-10:Α 1d72d:Θ 1d72e-6:Σ 1d736-18:α 1d750:|εθκφρπ 1d756-10:Α 1d767:Θ
  1d768-6:Σ 1d770-18:α 1d78a:|εθκφρπ 1d790-10:Α 1d7a1:Θ 1d7a2-6:Σ 1d7aa-18:α 1d7c4:|εθκφρπϜϝ
    1d7ce-9:0
  1d7d8-9:0 1d7e2-9:0 1d7ec-9:0 1d7f6-9:0 1ee00:|ابجد 1ee05:|وزحطيكلمنسعفصقرشتثخذضظغٮںڡٯ 1ee21:|بج
    1ee24:ه
  1ee27:ح 1ee29:|يكلمنسعفصق 1ee34:|شتثخ 1ee39:ض 1ee3b:غ 1ee42:ج 1ee47:ح 1ee49:ي 1ee4b:ل 1ee4d:|نسع
    1ee51:|صق
  1ee54:ش 1ee57:خ 1ee59:ض 1ee5b:غ 1ee5d:ں 1ee5f:ٯ 1ee61:|بج 1ee64:ه 1ee67:|حطيك 1ee6c:|منسعفصق
    1ee74:|شتثخ
  1ee79:|ضظغٮ 1ee7e:ڡ 1ee80:|ابجدهوزحطي 1ee8b:|لمنسعفصقرشتثخذضظغ 1eea1:|بجد 1eea5:|وزحطي
  1eeab:|لمنسعفصقرشتثخذضظغ 1fbf0-9:0 2f800:|丽丸乁𠄢你侮侻倂偺備僧像㒞𠘺免兔兤具𠔜㒹內再𠕋冗冤仌冬况𩇟凵刃㓟
  2f820:|刻剆割剷㔕勇勉勤勺包匆北卉卑博即卽卿卿卿𠨬灰及叟𠭣叫叱吆咞吸呈周咢哶唐啓啣善善喙喫喳嗂圖嘆圗噑噴切
  2f851:|壮城埴堍型堲報墬𡓤売壷夆多夢奢𡚨𡛪姬娛娧姘婦㛮㛼嬈嬾嬾𡧈寃寘寧寳𡬘寿将当尢㞁屠屮峀岍𡷤嵃𡷦嵮嵫嵼巡
  2f882:|巢㠯巽帨帽幩㡢𢆃㡼庰庳庶廊𪎒廾𢌱𢌱舁弢弢㣇𣊸𦇚形彫㣣徚忍志忹悁㤺㤜悔𢛔惇慈慌慎慌慺憎憲憤憯懞懲懶成
  2f8b3:|戛扝抱拔捐𢬌挽拼捨掃揤𢯱搢揅掩㨮摩摾撝摷㩬敏敬𣀊旣書晉㬙暑㬈㫤冒冕最暜肭䏙朗望朡杞杓𣏃㭉柺枅桒梅𣑭
  2f8e4:|梎栟椔㮝楂榣槪檨𣚣櫛㰘次𣢧歔㱎歲殟殺殻𣪍𡴋𣫺汎𣲼沿泍汧洖派海流浩浸涅𣴞洴港湮㴳滋滇𣻑淹潮𣽞𣾎濆瀹瀞
  2f915:|瀛㶖灊災灷炭𠔥煅𤉣熜𤎫爨爵牐𤘈犀犕𤜵𤠔獺王㺬玥㺸㺸瑇瑜瑱璅瓊㼛甤𤰶甾𤲒異𢆟瘐𤾡𤾸𥁄㿼䀈直𥃳𥃲𥄙𥄳眞
  2f946:|真真睊䀹瞋䁆䂖𥐝硎碌磌䃣𥘦祖𥚚𥛅福秫䄯穀穊穏𥥼𥪧𥪧竮䈂𥮫篆築䈧𥲀糒䊠糨糣紀𥾆絣䌁緇縂繅䌴𦈨𦉇䍙𦋙罺
  2f977:|𦌾羕翺者𦓚𦔣聠𦖨聰𣍟䏕育脃䐋脾媵𦞧𦞵𣎓𣎜舁舄辞䑫芑芋芝劳花芳芽苦𦬼若茝荣莭茣莽菧著荓菊菌菜𦰶𦵫𦳕䔫
  2f9a8:|蓱蓳蔖𧏊蕤𦼬䕝䕡𦾱𧃒䕫虐虜虧虩蚩蚈蜎蛢蝹蜨蝫螆䗗蟡蠁䗹衠衣𧙧裗裞䘵裺㒻𧢮𧥦䚾䛇誠諭變豕𧲨貫賁贛起𧼯
  2f9d9:|𠠄跋趼跰𠣞軔輸𨗒𨗭邔郱鄑𨜮鄛鈸鋗鋘鉼鏹鐕𨯺開䦕閷𨵷䧦雃嶲霣𩅅𩈚䩮䩶韠𩐊䪲𩒖頋頋頩𩖶飢䬳餩馧駂駾䯎𩬰
  2fa0a:|鬒鱀鳽䳎䳭鵧𪃎䳸𪄅𪈎𪊑麻䵖黹黾鼅鼏鼖鼻𪘀
"

structure Decomposition where
  first : Nat
  last : Nat
  parts : List Nat

def rowParts : List Char → List (List Char)
  | '|' :: parts => parts.map ([·])
  | parts => splitAtEvery '|' parts

def decompositions : List Decomposition :=
  (hexTable decompositionText).flatMap fun entry =>
    (rowParts entry.2).mapIdx fun index parts =>
      { first := entry.1.1 + index
        last := entry.1.1 + entry.1.2 + index
        parts := parts.map Char.toNat }

def parts? (point : Nat) : Option (List Nat) :=
  (decompositions.find? fun entry => entry.first ≤ point && point ≤ entry.last).map
    fun entry => entry.parts.map (· + (point - entry.first))

end ApiDescription.Text

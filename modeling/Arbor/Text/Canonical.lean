/-! Canonical decompositions and combining classes of Unicode 15.0; numbers are in base 16. -/

namespace Arbor.Text

def accents : String :=
  (String.join
    ["300 AÀEÈIÌOÒUÙaàeèiìoòuùÜǛüǜNǸnǹЕЀИЍеѐиѝĒḔēḕŌṐōṑWẀwẁÂẦâầĂẰăằÊỀêềÔỒôồƠỜơờƯỪưừYỲyỳἀἂἁἃἈἊἉἋἐἒἑ",
     "ἓἘἚἙἛἠἢἡἣἨἪἩἫἰἲἱἳἸἺἹἻὀὂὁὃὈὊὉὋὐὒὑὓὙὛὠὢὡὣὨὪὩὫαὰεὲηὴιὶοὸυὺωὼΑᾺΕῈΗῊ᾿῍ϊῒΙῚ῾῝ϋῢΥῪ¨῭ΟῸΩῺ,301 AÁEÉI",
     "ÍOÓUÚYÝaáeéiíoóuúyýCĆcćLĹlĺNŃnńRŔrŕSŚsśZŹzźÜǗüǘGǴgǵÅǺåǻÆǼæǽØǾøǿ¨΅ΑΆΕΈΗΉΙΊΟΌΥΎΩΏϊΐαάεέηήιίϋΰ",
     "οόυύωώϒϓГЃКЌгѓкќÇḈçḉĒḖēḗÏḮïḯKḰkḱMḾmḿÕṌõṍŌṒōṓPṔpṕŨṸũṹWẂwẃÂẤâấĂẮăắÊẾêếÔỐôốƠỚơớƯỨưứἀἄἁἅἈἌἉἍἐἔἑ",
     "ἕἘἜἙἝἠἤἡἥἨἬἩἭἰἴἱἵἸἼἹἽὀὄὁὅὈὌὉὍὐὔὑὕὙὝὠὤὡὥὨὬὩὭ᾿῎῾῞,302 AÂEÊIÎOÔUÛaâeêiîoôuûCĈcĉGĜgĝHĤhĥJĴjĵSŜs",
     "ŝWŴwŵYŶyŷZẐzẑẠẬạậẸỆẹệỌỘọộ,303 AÃNÑOÕaãnñoõIĨiĩUŨuũVṼvṽÂẪâẫĂẴăẵEẼeẽÊỄêễÔỖôỗƠỠơỡƯỮưữYỸyỹ,308 ",
     "AÄEËIÏOÖUÜaäeëiïoöuüyÿYŸΙΪΥΫιϊυϋϒϔЕЁІЇеёіїАӒаӓӘӚәӛЖӜжӝЗӞзӟИӤиӥОӦоӧӨӪөӫЭӬэӭУӰуӱЧӴчӵЫӸыӹHḦhḧÕ",
     "ṎõṏŪṺūṻWẄwẅXẌxẍtẗ,30a AÅaåUŮuůwẘyẙ,327 CÇcçGĢgģKĶkķLĻlļNŅnņRŖrŗSŞsşTŢtţEȨeȩDḐdḑHḨhḩ,304 AĀa",
     "āEĒeēIĪiīOŌoōUŪuūÜǕüǖÄǞäǟȦǠȧǡÆǢæǣǪǬǫǭÖȪöȫÕȬõȭȮȰȯȱYȲyȳИӢиӣУӮуӯGḠgḡḶḸḷḹṚṜṛṝαᾱΑᾹιῑΙῙυῡΥῩ,306 A",
     "ĂaăEĔeĕGĞgğIĬiĭOŎoŏUŬuŭУЎИЙийуўЖӁжӂАӐаӑЕӖеӗȨḜȩḝẠẶạặαᾰΑᾸιῐΙῘυῠΥῨ,328 AĄaąEĘeęIĮiįUŲuųOǪoǫ,",
     "307 CĊcċEĖeėGĠgġIİZŻzżAȦaȧOȮoȯBḂbḃDḊdḋFḞfḟHḢhḣMṀmṁNṄnṅPṖpṗRṘrṙSṠsṡŚṤśṥŠṦšṧṢṨṣṩTṪtṫWẆwẇXẊxẋY",
     "Ẏyẏſẛ,30c CČcčDĎdďEĚeěLĽlľNŇnňRŘrřSŠsšTŤtťZŽzžAǍaǎIǏiǐOǑoǒUǓuǔÜǙüǚGǦgǧKǨkǩƷǮʒǯjǰHȞhȟ,30b OŐ",
     "oőUŰuűУӲуӳ,31b OƠoơUƯuư,30f AȀaȁEȄeȅIȈiȉOȌoȍRȐrȑUȔuȕѴѶѵѷ,311 AȂaȃEȆeȇIȊiȋOȎoȏRȒrȓUȖuȗ,326 S",
     "ȘsșTȚtț,93c नऩरऱळऴ,bd7 ஒஔ,102e ဥဦ,1b35 ᬅᬆᬇᬈᬉᬊᬋᬌᬍᬎᬑᬒ,325 AḀaḁ,323 BḄbḅDḌdḍHḤhḥKḲkḳLḶlḷMṂmṃNṆ",
     "nṇRṚrṛSṢsṣTṬtṭVṾvṿWẈwẉZẒzẓAẠaạEẸeẹIỊiịOỌoọƠỢơợUỤuụƯỰưựYỴyỵ,331 BḆbḇDḎdḏKḴkḵLḺlḻNṈnṉRṞrṟTṮtṯ",
     "ZẔzẕhẖ,32d DḒdḓEḘeḙLḼlḽNṊnṋTṰtṱUṶuṷ,330 EḚeḛIḬiḭUṴuṵ,32e HḪhḫ,324 UṲuṳ,309 AẢaảÂẨâẩĂẲăẳEẺeẻ",
     "ÊỂêểIỈiỉOỎoỏÔỔôổƠỞơởUỦuủƯỬưửYỶyỷ,313 αἀΑἈεἐΕἘηἠΗἨιἰΙἸοὀΟὈυὐωὠΩὨρῤ,314 αἁΑἉεἑΕἙηἡΗἩιἱΙἹοὁΟὉυ",
     "ὑΥὙωὡΩὩρῥΡῬ,342 ἀἆἁἇἈἎἉἏἠἦἡἧἨἮἩἯἰἶἱἷἸἾἹἿὐὖὑὗὙὟὠὦὡὧὨὮὩὯαᾶ¨῁ηῆ᾿῏ιῖϊῗ῾῟υῦϋῧωῶ,345 ἀᾀἁᾁἂᾂἃᾃἄᾄἅᾅ",
     "ἆᾆἇᾇἈᾈἉᾉἊᾊἋᾋἌᾌἍᾍἎᾎἏᾏἠᾐἡᾑἢᾒἣᾓἤᾔἥᾕἦᾖἧᾗἨᾘἩᾙἪᾚἫᾛἬᾜἭᾝἮᾞἯᾟὠᾠὡᾡὢᾢὣᾣὤᾤὥᾥὦᾦὧᾧὨᾨὩᾩὪᾪὫᾫὬᾬὭᾭὮᾮὯᾯὰᾲαᾳάᾴᾶ",
     "ᾷΑᾼὴῂηῃήῄῆῇΗῌὼῲωῳώῴῶῷΩῼ,338 ←↚→↛↔↮⇐⇍⇔⇎⇒⇏∃∄∈∉∋∌∣∤∥∦∼≁≃≄≅≇≈≉=≠≡≢≍≭<≮>≯≤≰≥≱≲≴≳≵≶≸≷≹≺⊀≻⊁⊂⊄⊃⊅⊆⊈⊇",
     "⊉⊢⊬⊨⊭⊩⊮⊫⊯≼⋠≽⋡⊑⋢⊒⋣⊲⋪⊳⋫⊴⋬⊵⋭,3099 かがきぎくぐけげこごさざしじすずせぜそぞただちぢつづてでとど",
     "はばひびふぶへべほぼうゔゝゞカガキギクグケゲコゴサザシジスズセゼソゾタダチヂツヅテデトドハ",
     "バヒビフブヘベホボウヴワヷヰヸヱヹヲヺヽヾ,309a はぱひぴふぷへぺほぽハパヒピフプヘペホポ,",
     "110ba 𑂙𑂚𑂛𑂜𑂥𑂫"])

def composites : String :=
  (String.join
    ["653 627 622,654 627 623 648 624 64a 626 6d5 6c0 6c1 6c2 6d2 6d3,655 627 625,9be 9c7 9cb,",
     "9d7 9c7 9cc,b56 b47 b48,b3e b47 b4b,b57 b47 b4c,bd7 bc6 bcc,bbe bc6 bca bc7 bcb,c56 c46 ",
     "c48,cd5 cbf cc0 cc6 cc7 cca ccb,cd6 cc6 cc8,cc2 cc6 cca,d3e d46 d4a d47 d4b,d57 d46 d4c,",
     "dca dd9 dda ddc ddd,dcf dd9 ddc,ddf dd9 dde,1b35 1b3a 1b3b 1b3c 1b3d 1b3e 1b40 1b3f 1b41 ",
     "1b42 1b43,11127 11131 1112e 11132 1112f,1133e 11347 1134b,11357 11347 1134c,114ba 114b9 ",
     "114bb,114b0 114b9 114bc,114bd 114b9 114be,115af 115b8 115ba 115b9 115bb,11930 11935 11938"])

def exclusions : String :=
  (String.join
    ["344 308 301,958 915 93c,959 916 93c,95a 917 93c,95b 91c 93c,95c 921 93c,95d 922 93c,95e ",
     "92b 93c,95f 92f 93c,9dc 9a1 9bc,9dd 9a2 9bc,9df 9af 9bc,a33 a32 a3c,a36 a38 a3c,a59 a16 ",
     "a3c,a5a a17 a3c,a5b a1c a3c,a5e a2b a3c,b5c b21 b3c,b5d b22 b3c,f43 f42 fb7,f4d f4c fb7,",
     "f52 f51 fb7,f57 f56 fb7,f5c f5b fb7,f69 f40 fb5,f73 f71 f72,f75 f71 f74,f76 fb2 f80,f78 ",
     "fb3 f80,f81 f71 f80,f93 f92 fb7,f9d f9c fb7,fa2 fa1 fb7,fa7 fa6 fb7,fac fab fb7,fb9 f90 ",
     "fb5,2adc 2add 338,fb1d 5d9 5b4,fb1f 5f2 5b7,fb2a 5e9 5c1,fb2b 5e9 5c2,fb2c fb49 5c1,fb2d ",
     "fb49 5c2,fb2e 5d0 5b7,fb2f 5d0 5b8,fb30 5d0 5bc,fb31 5d1 5bc,fb32 5d2 5bc,fb33 5d3 5bc,",
     "fb34 5d4 5bc,fb35 5d5 5bc,fb36 5d6 5bc,fb38 5d8 5bc,fb39 5d9 5bc,fb3a 5da 5bc,fb3b 5db 5bc,",
     "fb3c 5dc 5bc,fb3e 5de 5bc,fb40 5e0 5bc,fb41 5e1 5bc,fb43 5e3 5bc,fb44 5e4 5bc,fb46 5e6 5bc,",
     "fb47 5e7 5bc,fb48 5e8 5bc,fb49 5e9 5bc,fb4a 5ea 5bc,fb4b 5d5 5b9,fb4c 5d1 5bf,fb4d 5db 5bf,",
     "fb4e 5e4 5bf,1d15e 1d157 1d165,1d15f 1d158 1d165,1d160 1d15f 1d16e,1d161 1d15f 1d16f,1d162 ",
     "1d15f 1d170,1d163 1d15f 1d171,1d164 1d15f 1d172,1d1bb 1d1b9 1d165,1d1bc 1d1ba 1d165,1d1bd ",
     "1d1bb 1d16e,1d1be 1d1bc 1d16e,1d1bf 1d1bb 1d16f,1d1c0 1d1bc 1d16f,340 300,341 301,343 313,",
     "2000 2002,2001 2003"])

def singletons : String :=
  (String.join
    ["374 ʹ,37e ;,387 ·,1f71 ά,1f73 έ,1f75 ή,1f77 ί,1f79 ό,1f7b ύ,1f7d ώ,1fbb Ά,1fbe ι,1fc9 Έ,",
     "1fcb Ή,1fd3 ΐ,1fdb Ί,1fe3 ΰ,1feb Ύ,1fee ΅`,1ff9 Ό,1ffb Ώ,1ffd ´,2126 Ω,212a KÅ,2329 〈〉,",
     "f900 豈更車賈滑串句龜龜契金喇奈懶癩羅蘿螺裸邏樂洛烙珞落酪駱亂卵欄爛蘭鸞嵐濫藍襤拉臘蠟廊朗浪",
     "狼郎來冷勞擄櫓爐盧老蘆虜路露魯鷺碌祿綠菉錄鹿論壟弄籠聾牢磊賂雷壘屢樓淚漏累縷陋勒肋凜凌稜綾",
     "菱陵讀拏樂諾丹寧怒率異北磻便復不泌數索參塞省葉說殺辰沈拾若掠略亮兩凉梁糧良諒量勵呂女廬旅濾",
     "礪閭驪麗黎力曆歷轢年憐戀撚漣煉璉秊練聯輦蓮連鍊列劣咽烈裂說廉念捻殮簾獵令囹寧嶺怜玲瑩羚聆鈴",
     "零靈領例禮醴隸惡了僚寮尿料樂燎療蓼遼龍暈阮劉杻柳流溜琉留硫紐類六戮陸倫崙淪輪律慄栗率隆利吏",
     "履易李梨泥理痢罹裏裡里離匿溺吝燐璘藺隣鱗麟林淋臨立笠粒狀炙識什茶刺切度拓糖宅洞暴輻行降見廓",
     "兀嗀,fa10 塚,fa12 晴,fa15 凞猪益礼神祥福靖精羽,fa20 蘒,fa22 諸,fa25 逸都,fa2a 飯飼館鶴郞隷",
     "侮僧免勉勤卑喝嘆器塀墨層屮悔慨憎懲敏既暑梅海渚漢煮爫琢碑社祉祈祐祖祝禍禎穀突節練縉繁署者臭",
     "艹艹著褐視謁謹賓贈辶逸難響頻恵𤋮舘,fa70 並况全侀充冀勇勺喝啕喙嗢塚墳奄奔婢嬨廒廙彩徭惘慎愈",
     "憎慠懲戴揄搜摒敖晴朗望杖歹殺流滛滋漢瀞煮瞧爵犯猪瑱甆画瘝瘟益盛直睊着磌窱節类絛練缾者荒華蝹",
     "襁覆視調諸請謁諾諭謹變贈輸遲醙鉶陼難靖韛響頋頻鬒龜𢡊𢡄𣏕㮝䀘䀹𥉉𥳐𧻓齃龎,2f800 丽丸乁𠄢你侮",
     "侻倂偺備僧像㒞𠘺免兔兤具𠔜㒹內再𠕋冗冤仌冬况𩇟凵刃㓟刻剆割剷㔕勇勉勤勺包匆北卉卑博即卽卿卿",
     "卿𠨬灰及叟𠭣叫叱吆咞吸呈周咢哶唐啓啣善善喙喫喳嗂圖嘆圗噑噴切壮城埴堍型堲報墬𡓤売壷夆多夢奢",
     "𡚨𡛪姬娛娧姘婦㛮㛼嬈嬾嬾𡧈寃寘寧寳𡬘寿将当尢㞁屠屮峀岍𡷤嵃𡷦嵮嵫嵼巡巢㠯巽帨帽幩㡢𢆃㡼庰庳",
     "庶廊𪎒廾𢌱𢌱舁弢弢㣇𣊸𦇚形彫㣣徚忍志忹悁㤺㤜悔𢛔惇慈慌慎慌慺憎憲憤憯懞懲懶成戛扝抱拔捐𢬌挽",
     "拼捨掃揤𢯱搢揅掩㨮摩摾撝摷㩬敏敬𣀊旣書晉㬙暑㬈㫤冒冕最暜肭䏙朗望朡杞杓𣏃㭉柺枅桒梅𣑭梎栟椔",
     "㮝楂榣槪檨𣚣櫛㰘次𣢧歔㱎歲殟殺殻𣪍𡴋𣫺汎𣲼沿泍汧洖派海流浩浸涅𣴞洴港湮㴳滋滇𣻑淹潮𣽞𣾎濆瀹",
     "瀞瀛㶖灊災灷炭𠔥煅𤉣熜𤎫爨爵牐𤘈犀犕𤜵𤠔獺王㺬玥㺸㺸瑇瑜瑱璅瓊㼛甤𤰶甾𤲒異𢆟瘐𤾡𤾸𥁄㿼䀈直",
     "𥃳𥃲𥄙𥄳眞真真睊䀹瞋䁆䂖𥐝硎碌磌䃣𥘦祖𥚚𥛅福秫䄯穀穊穏𥥼𥪧𥪧竮䈂𥮫篆築䈧𥲀糒䊠糨糣紀𥾆絣䌁",
     "緇縂繅䌴𦈨𦉇䍙𦋙罺𦌾羕翺者𦓚𦔣聠𦖨聰𣍟䏕育脃䐋脾媵𦞧𦞵𣎓𣎜舁舄辞䑫芑芋芝劳花芳芽苦𦬼若茝荣",
     "莭茣莽菧著荓菊菌菜𦰶𦵫𦳕䔫蓱蓳蔖𧏊蕤𦼬䕝䕡𦾱𧃒䕫虐虜虧虩蚩蚈蜎蛢蝹蜨蝫螆䗗蟡蠁䗹衠衣𧙧裗裞",
     "䘵裺㒻𧢮𧥦䚾䛇誠諭變豕𧲨貫賁贛起𧼯𠠄跋趼跰𠣞軔輸𨗒𨗭邔郱鄑𨜮鄛鈸鋗鋘鉼鏹鐕𨯺開䦕閷𨵷䧦雃嶲",
     "霣𩅅𩈚䩮䩶韠𩐊䪲𩒖頋頋頩𩖶飢䬳餩馧駂駾䯎𩬰鬒鱀鳽䳎䳭鵧𪃎䳸𪄅𪈎𪊑麻䵖黹黾鼅鼏鼖鼻𪘀"])

def combiningClasses : String :=
  (String.join
    ["e6 300-14 29-7 2 4-2 4-2 5 4 8-c 114-4 10b-3 2-2 3-5 7-1 2-1 3 15 4c-7 3c-1 3-4 2-1 78-6 ",
     "3-3 2 3-1 3-1 44 2-1 2-1 4 3 2-2 2 2 2 2-1 a1-6 2 23-3 2-8 2-2 2-4 6b 4-3 2b-4 6-d 3-1 2-1 ",
     "2-2 7-2 2-1 3-4 52 2-1 aa 584-1 3-1 3d6-2 47e 15d dd 5e-7 34-4 7-1 5-1 3-4 2-3 9d 2-6 ",
     "15d-2 8-1 5 14 4-1 c7-1 2-6 2-1 5-24 6 3 2d2-1 3-3 4-1 5 6 2 7 bff-2 ef-1f 7870 5-9 21-1 ",
     "51-1 1ef-11 1bf 2-1 4-1 6-1 2 535f-6 8-1 547-4 695 29 ad 23f-3 184-1 9c-2 2 36 2 17c-2 ",
     "264-6 4-4 ea 56d2-6 664f-4 21-3 95-2 dbc-6 2-10 3-6 2-1 2-4 65 a1-6 178 3e-3 200 455-5,e8 ",
     "315 5 3e 1a9e 1236 1b4c0-1,dc 316-3 3-4 3-3 3-a 6-3 b-2 4-1 5-3 3-1 237 5 5 7-5 3 1b 90-1 ",
     "6 3 84 7 3 44 3 3-2 2-1 2 4 2 2 2 aa b 5c-2 3e-2 34-4 10 3 3 4-2 7 3-1 58 5c6-1 1c 2 8f c7 ",
     "8ae dd 67 36-5 3 2-1 3-1 6 a2 169-4 3-3 e d5 8 5 2a 4 2 2e9 4-3 883c-2 187 5373-6 3d0 e3 ",
     "72d 2d ac 417-2 47-1 4 2-3 33 2 c1f6-7 8-1 1363 3e2-6,d8 31b c1e 1c22c-1 8-4,ca 321-1 5-1 ",
     "1aa8,1 334-4 199c e-6 3ea-1 5-2 b-1 4-1 e94e 60b7-4 51aa 14c9-2,f0 345,e9 35c 3 3 1a9a,ea ",
     "35d-1 2-1 1a6c,de 59a 13 138c 16f4,e4 5ae 12fb 54e-1 1233,a 5b0,b 5b1,c 5b2,d 5b3,e 5b4,f ",
     "5b5,10 5b6,11 5b7,12 5b8 f,13 5b9-1,14 5bb,15 5bc,16 5bd,17 5bf,18 5c1,19 5c2,1e 618 36,1f ",
     "619 36,20 61a 36,1b 64b 2a5,1c 64c 2a5,1d 64d 2a5,21 651,22 652,23 670,24 711,7 93c 80 80 ",
     "80 80 100 80 37b afd b2 51 8d7c 6707 b9 57 6c b3 52-1 10a 7d fd f7 183 109 3ff cc08,9 94d ",
     "80 80 80 80 80 80 80 6e-1 11 7d 70 80 ca b5-1 6da-1 1f 9e 28e e4 66-1 47-1 118c 7a87 26 98 ",
     "8f 6d 136 f7 5e52 607 2a f 3a 7a-1 8c 75 b5 63 f5 80 fd 80 77 75 10e 104-1 a2 54 13 52 1a6 ",
     "105-1 52 1aa-1,54 c55,5b c56,67 e38-1,6b e48-3,76 eb8-1,7a ec8-3,81 f71,82 f72 8-3 3,84 ",
     "f74,d6 1dce,da 1dfa 1230,e0 302e-1,8 3099-1,1a fb1e,6 16ff0-1,e2 1d16d"])

end Arbor.Text

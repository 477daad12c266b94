/-!
# OppNet.Random.ZigguratTable

The layers of two ziggurats with 256 layers each: one under `exp (-x)` for positive `x`, one under
`exp (-x * x / 2)`. For each density, `edges` holds the right edges of the layers, from the base
upwards and down to zero, and `heights` the density at these edges. The words are the bits of
doubles.
-/

namespace OppNet.Random

structure ZigguratTable where
  edges : Array Float
  heights : Array Float

namespace ZigguratTable

/-- Layer edges under `exp (-x)`. -/
def exponentialEdges : Array UInt64 := #[
  0x402164ec94bf5dc3, 0x401ec9d9297ebb83, 0x401bc39e51da71fc, 0x4019e9dc0d487b85,
  0x4018939fe6f2ed19, 0x40178750d6eac62f, 0x4016aa676d4bbf72, 0x4015ee7ae17313d2,
  0x40154ad83ccf73f5, 0x4014b9d7cd4751d0, 0x4014379766e41361, 0x4013c14ec7c8b860,
  0x401354ee27ccf75d, 0x4012f0e38a4411f0, 0x401293f5ae49aaa5, 0x40123d2bb659919f,
  0x4011ebbca0c9fa7c, 0x40119f03bcb3c2d6, 0x401156786775442a, 0x401111a8034392a6,
  0x4010d031785d48a0, 0x401091c1cdcba54e, 0x401056118bf58eef, 0x40101ce2b362ec2e,
  0x400fcbfe43f6c6e6, 0x400f626e9791f7a7, 0x400efcc26750ea4a, 0x400e9aaf2af383c1,
  0x400e3bf26e190960, 0x400de050af4ef19f, 0x400d87946fec3bec, 0x400d318d6b2738c5,
  0x400cde0fecf2a97f, 0x400c8cf442c8c8f3, 0x400c3e1641c2e0a6, 0x400bf154de4bef76,
  0x400ba691d276da5d, 0x400b5db15091ea0e, 0x400b1699c003b608, 0x400ad13382d845c3,
  0x400a8d68c2ad86e8, 0x400a4b2543e84c3a, 0x400a0a563e49f177, 0x4009caea3a24d9e9,
  0x40098cd0f18d1ad7, 0x40094ffb34fc2a0d, 0x4009145ad2f37543, 0x4008d9e2823b3695,
  0x4008a085ce695baa, 0x4008683906687341, 0x400830f12cc0bec3, 0x4007faa3e96e1412,
  0x4007c5477d1476d3, 0x400790d2b56b71f9, 0x40075d3ce2bd71c3, 0x40072a7dce5cd218,
  0x4006f88db1f42507, 0x4006c7652f9a7b1e, 0x400696fd4a9748ee, 0x4006674f60c3f431,
  0x40063855247b2e93, 0x40060a0897081877, 0x4005dc640388bd9c, 0x4005af61fa38e106,
  0x400582fd4c1b4460, 0x4005573106f8a759, 0x40052bf871acaab1, 0x4005014f08b99508,
  0x4004d7307b1cb127, 0x4004ad98a75da14c, 0x4004848398d39432, 0x40045bed851bc92c,
  0x400433d2c9bd42f8, 0x40040c2fe9f5eead, 0x4003e5018caddecf, 0x4003be447a8d8b83,
  0x400397f59c345143, 0x40037211f88ca856, 0x40034c96b33bc965, 0x400327810b2aa7cf,
  0x400302ce59265964, 0x4002de7c0e962d70, 0x4002ba87b445db50, 0x400296eee942532b,
  0x400273af61c7daa6, 0x400250c6e6403bba, 0x40022e33524fe550, 0x40020bf293f0f4a2,
  0x4001ea02aa9b3371, 0x4001c861a6782a5b, 0x4001a70da7a27821, 0x40018604dd6fae9e,
  0x4001654585c404c1, 0x400144cdec6f3a2c, 0x4001249c6a92154b, 0x400104af660befcf,
  0x4000e50550efcfb8, 0x4000c59ca9009470, 0x4000a673f733c81a, 0x40008789cf3aad0f,
  0x400068dccf1126db, 0x40004a6b9e9224a3, 0x40002c34ef11391b, 0x40000e377af911d5,
  0x3fffe0e40add09d9, 0x3fffa5c6b3efe1e6, 0x3fff6b1498515ed1, 0x3fff30cb6ea0bc81,
  0x3ffef6e8fc5b9169, 0x3ffebd6b154a767a, 0x3ffe844f9af42381, 0x3ffe4b947c16a454,
  0x3ffe1337b426509d, 0x3ffddb374ad23581, 0x3ffda391538da50c, 0x3ffd6c43ed1ea401,
  0x3ffd354d4130f2b0, 0x3ffcfeab83ed7182, 0x3ffcc85cf395a56e, 0x3ffc925fd82323fe,
  0x3ffc5cb282eab1a7, 0x3ffc27534e42e02f, 0x3ffbf2409d2dfd87, 0x3ffbbd78db072612,
  0x3ffb88fa7b324fb7, 0x3ffb54c3f8cf2543, 0x3ffb20d3d66e8bb6, 0x3ffaed289dcaad00,
  0x3ffab9c0df81657b, 0x3ffa869b32d0f310, 0x3ffa53b63556c691, 0x3ffa21108ad0592e,
  0x3ff9eea8dcdde952, 0x3ff9bc7ddac7035e, 0x3ff98a8e3940bbf5, 0x3ff958d8b235828b,
  0x3ff9275c048e73e2, 0x3ff8f616f3fe1514, 0x3ff8c50848cc6095, 0x3ff8942ecfa40f55,
  0x3ff86389596108e8, 0x3ff83316badfe62b, 0x3ff802d5ccce7278, 0x3ff7d2c56b7d17f9,
  0x3ff7a2e476b1240c, 0x3ff77331d177d131, 0x3ff743ac61fa041d, 0x3ff714531150a9fc,
  0x3ff6e524cb59a609, 0x3ff6b6207e8d3ce1, 0x3ff687451bd3ebf0, 0x3ff65891965c9b8e,
  0x3ff62a04e3731a2f, 0x3ff5fb9dfa56cf28, 0x3ff5cd5bd4119336, 0x3ff59f3d6b4e9cfa,
  0x3ff57141bc316f27, 0x3ff54367c42cb5f9, 0x3ff515ae81d900fc, 0x3ff4e814f4cb45eb,
  0x3ff4ba9a1d6b18a5, 0x3ff48d3cfcc883c4, 0x3ff45ffc94716ca7, 0x3ff432d7e6466cd0,
  0x3ff405cdf44f09c4, 0x3ff3d8ddc08d336e, 0x3ff3ac064ccfeffc, 0x3ff37f469a851aef,
  0x3ff3529daa8a1ba0, 0x3ff3260a7cfb7611, 0x3ff2f98c11031720, 0x3ff2cd2164a53b5d,
  0x3ff2a0c9748bcda9, 0x3ff274833bd0189f, 0x3ff2484db3c2a329, 0x3ff21c27d3b10e04,
  0x3ff1f01090a9c4e0, 0x3ff1c406dd3d5281, 0x3ff19809a93d2394, 0x3ff16c17e1777ff9,
  0x3ff140306f707dbc, 0x3ff114523917ac13, 0x3ff0e87c207a2f64, 0x3ff0bcad03710135,
  0x3ff090e3bb4b0070, 0x3ff0651f1c7276f5, 0x3ff0395df60db15f, 0x3ff00d9f119a3cd6,
  0x3fefc3c26504a99c, 0x3fef6c462b57feb0, 0x3fef14c6e2029499, 0x3feebd41e5e21b5d,
  0x3fee65b483cf103e, 0x3fee0e1bf77c31f8, 0x3fedb6756a429050, 0x3fed5ebdf1d86b87,
  0x3fed06f28ef0e6f4, 0x3fecaf102bc25ad4, 0x3fec57139a70d298, 0x3febfef99359fe92,
  0x3feba6beb33f8f83, 0x3feb4e5f794c9795, 0x3feaf5d844f224c2, 0x3fea9d255396d25b,
  0x3fea4442be148844, 0x3fe9eb2c75ff03b8, 0x3fe991de42ad1332, 0x3fe93853bdfda23d,
  0x3fe8de8850d0c523, 0x3fe884772f2be1e5, 0x3fe82a1b53fed593, 0x3fe7cf6f7c7e816c,
  0x3fe7746e2307796d, 0x3fe71911797990b5, 0x3fe6bd5362faa93e, 0x3fe6612d6d0c68da,
  0x3fe60498c7dd2ec8, 0x3fe5a78e3db8bef6, 0x3fe54a0629786f47, 0x3fe4ebf86bcd0b8d,
  0x3fe48d5c5f35e70c, 0x3fe42e28ca706742, 0x3fe3ce53d121629a, 0x3fe36dd2e26d81fb,
  0x3fe30c9aa526da45, 0x3fe2aa9ee1236804, 0x3fe247d26538ff28, 0x3fe1e426e93e49e1,
  0x3fe17f8ceb4bdf9b, 0x3fe119f38749f5aa, 0x3fe0b348479b80f7, 0x3fe04b76ed6a7553,
  0x3fdfc4d25d683201, 0x3fdef00ccf5f4fa3, 0x3fde186678f17352, 0x3fdd3da24df17c2d,
  0x3fdc5f7bd78c3f7f, 0x3fdb7da5dddda3b9, 0x3fda97c8be5d51f8, 0x3fd9ad80552237c7,
  0x3fd8be5954d36063, 0x3fd7c9cdda17d00e, 0x3fd6cf40f0a72bb2, 0x3fd5cdf89d024ab7,
  0x3fd4c515c60bfe16, 0x3fd3b388fe3d6ebd, 0x3fd2980290da2625, 0x3fd170db24d6f662,
  0x3fd03bf049c65c2d, 0x3fcdecd8b76dbd7b, 0x3fcb38d1ef79b7ae, 0x3fc85090fbc27a5e,
  0x3fc522e6e54a2a4e, 0x3fc19335a95b8d8e, 0x3fbad6b2495b4cc6, 0x3fb0589d8b5d408f,
  0x0000000000000000]

/-- The density `exp (-x)` at these edges. -/
def exponentialHeights : Array UInt64 := #[
  0x3f25e5d3f59d053b, 0x3f3dc31c329f0b4f, 0x3f4fb20af78dfcb4, 0x3f592bb5540c3e28,
  0x3f61946ba8e1a326, 0x3f66d888f3a1feff, 0x3f6c58b381cd4b11, 0x3f71073d69574045,
  0x3f73fa97cee32301, 0x3f77049f37ec3627, 0x3f7a23e9d497483b, 0x3f7d5751fa745dcd,
  0x3f804ef2295fd7fb, 0x3f81fb69edb37672, 0x3f83b0b8c1516f63, 0x3f856e930be416cc,
  0x3f8734b6e6aa74f7, 0x3f8902ea688fa7bb, 0x3f8ad8fa5542c92d, 0x3f8cb6b9146e275a,
  0x3f8e9bfdde89c7ce, 0x3f904452091e02ee, 0x3f913e4554725f5d, 0x3f923bc9e1b93a30,
  0x3f933cd225315d82, 0x3f944151ce87f0bd, 0x3f95493da6ab0250, 0x3f96548b72a24077,
  0x3f976331da87fc96, 0x3f98752853ec9968, 0x3f998a670f132a49, 0x3f9aa2e6e6924e9c,
  0x3f9bbea150fa5871, 0x3f9cdd9054331b0f, 0x3f9dffae7a51746d, 0x3f9f24f6c7af9895,
  0x3fa026b2590dfaf0, 0x3fa0bc7a0c7cd654, 0x3fa153d09f19b3a5, 0x3fa1ecb45ff312d7,
  0x3fa28723c956c00f, 0x3fa3231d7e3f14b1, 0x3fa3c0a047ff1901, 0x3fa45fab14266b1b,
  0x3fa5003cf296c5ee, 0x3fa5a25513c5d2cd, 0x3fa645f2c726a043, 0x3fa6eb1579b6af53,
  0x3fa791bcb4ab08a0, 0x3fa839e81c3a396d, 0x3fa8e3976e80776e, 0x3fa98eca827b7c4d,
  0x3faa3b81471bf138, 0x3faae9bbc26a8083, 0x3fab997a10bed984, 0x3fac4abc640721e8,
  0x3facfd83031e7949, 0x3fadb1ce49315810, 0x3fae679ea52eb2e7, 0x3faf1ef49944e838,
  0x3fafd7d0ba69967c, 0x3fb04919d7f5c81a, 0x3fb0a70f19871b3f, 0x3fb105c88756ca53,
  0x3fb165468f755395, 0x3fb1c589a86fa342, 0x3fb22692512c9d8d, 0x3fb2886110ce0571,
  0x3fb2eaf676948dd1, 0x3fb34e5319c6e718, 0x3fb3b277999b9f9f, 0x3fb417649d25b10f,
  0x3fb47d1ad343985c, 0x3fb4e39af290d929, 0x3fb54ae5b959d037, 0x3fb5b2fbed91bb40,
  0x3fb61bde5ccadef8, 0x3fb6858ddc30b621, 0x3fb6f00b488416b8, 0x3fb75b5786193c21,
  0x3fb7c77380d7a6f5, 0x3fb834602c3bc4bb, 0x3fb8a21e835a533d, 0x3fb910af88e574ba,
  0x3fb9801447336b70, 0x3fb9f04dd046f428, 0x3fba615d3dd938b6, 0x3fbad343b1655463,
  0x3fbb460254356546, 0x3fbbb99a5771268c, 0x3fbc2e0cf42e10ad, 0x3fbca35b6b80fd56,
  0x3fbd198706914dd5, 0x3fbd909116ad9396, 0x3fbe087af561baf8, 0x3fbe8146048eb9c9,
  0x3fbefaf3ae83c339, 0x3fbf758566190412, 0x3fbff0fca6cbea8b, 0x3fc036ad7a6e7f04,
  0x3fc07550eeb7a5bf, 0x3fc0b4697b54b62f, 0x3fc0f3f7efec171f, 0x3fc133fd20c9712e,
  0x3fc17479e6f0ae77, 0x3fc1b56f2031d665, 0x3fc1f6ddaf3dca63, 0x3fc238c67bbbe876,
  0x3fc27b2a7260993e, 0x3fc2be0a8504cf32, 0x3fc30167aabe7d6c, 0x3fc34542dffa0cad,
  0x3fc3899d2694d5c7, 0x3fc3ce7785f8a903, 0x3fc413d30b386a97, 0x3fc459b0c92dccc3,
  0x3fc4a011d8983093, 0x3fc4e6f7583cb6f7, 0x3fc52e626d078c46, 0x3fc57654422e78f1,
  0x3fc5bece0954c2b2, 0x3fc607d0fab06a2e, 0x3fc6515e5530d1a9, 0x3fc69b775ea6da26,
  0x3fc6e61d63ee84e9, 0x3fc73151b91a2838, 0x3fc77d15b99f46fd, 0x3fc7c96ac8851bad,
  0x3fc816525094e7e4, 0x3fc863cdc48c1af8, 0x3fc8b1de9f5062d3, 0x3fc900866425bb78,
  0x3fc94fc69ee6929f, 0x3fc99fa0e43e1621, 0x3fc9f016d1e4c510, 0x3fca412a0edf5cba,
  0x3fca92dc4bc03c47, 0x3fcae52f42eb5b0a, 0x3fcb3824b8dcef3c, 0x3fcb8bbe7c72e4a3,
  0x3fcbdffe67394433, 0x3fcc34e65db9afec, 0x3fcc8a784fce17ff, 0x3fcce0b638f6d09b,
  0x3fcd37a220b431fa, 0x3fcd8f3e1ae3eeb6, 0x3fcde78c48224f37, 0x3fce408ed62f83a4,
  0x3fce9a48005940ef, 0x3fcef4ba0fe8e098, 0x3fcf4fe75c963e7b, 0x3fcfabd24cff9351,
  0x3fd0043eab934769, 0x3fd032f580797c2b, 0x3fd0620ef05d90d1, 0x3fd0918c4ee93e12,
  0x3fd0c16ef88f5332, 0x3fd0f1b852d9a66b, 0x3fd12269ccba9fb9, 0x3fd15384dee291ee,
  0x3fd1850b0c191981, 0x3fd1b6fde19abc59, 0x3fd1e95ef77b09da, 0x3fd21c2ff10b7eff,
  0x3fd24f727d4776fd, 0x3fd2832857457628, 0x3fd2b75346ae2263, 0x3fd2ebf520394271,
  0x3fd3210fc6312436, 0x3fd356a528fcd0dd, 0x3fd38cb747b17def, 0x3fd3c34830abb285,
  0x3fd3fa5a0230a14f, 0x3fd431eeeb1841e2, 0x3fd46a092b80beef, 0x3fd4a2ab158bdad4,
  0x3fd4dbd70e26f920, 0x3fd5158f8dde89f7, 0x3fd54fd721bda3e9, 0x3fd58ab06c3aa9f1,
  0x3fd5c61e2631ee6f, 0x3fd602231fef5879, 0x3fd63ec2424827e7, 0x3fd67bfe8fc60da1,
  0x3fd6b9db25e4e99f, 0x3fd6f85b3e649ea1, 0x3fd7378230b08dee, 0x3fd77753735e72e7,
  0x3fd7b7d29dc68022, 0x3fd7f90369b6ce5d, 0x3fd83ae9b544613d, 0x3fd87d8984bc3f90,
  0x3fd8c0e704b75d3e, 0x3fd905068c545d09, 0x3fd949ec9f9a8115, 0x3fd98f9df2097bad,
  0x3fd9d61f695a3797, 0x3fda1d76207521f9, 0x3fda65a76aa30145, 0x3fdaaeb8d6fdf6eb,
  0x3fdaf8b03428ef65, 0x3fdb439394548075, 0x3fdb8f6951990b8e, 0x3fdbdc3812aeeebb,
  0x3fdc2a06d00ea588, 0x3fdc78dcd983fb66, 0x3fdcc8c1dc40e098, 0x3fdd19bde97e1a11,
  0x3fdd6bd97db9ed80, 0x3fddbf1d88a72112, 0x3fde139375e13802, 0x3fde6945367dd357,
  0x3fdec03d4b969d96, 0x3fdf1886d1eb4253, 0x3fdf722d8ebfc600, 0x3fdfcd3dfe21457c,
  0x3fe014e2b160f327, 0x3fe043e8ebd2654b, 0x3fe073b931ee3b80, 0x3fe0a45b8854d02d,
  0x3fe0d5d8812b1e2e, 0x3fe108394a1cc390, 0x3fe13b87bc33169f, 0x3fe16fce6dce6ff2,
  0x3fe1a518c71e3b29, 0x3fe1db7319877b8d, 0x3fe212eaba813ecc, 0x3fe24b8e228c50a6,
  0x3fe2856d111132c0, 0x3fe2c098b61f4f27, 0x3fe2fd23e345da61, 0x3fe33b23450e631b,
  0x3fe37aada708dddc, 0x3fe3bbdc44e1d116, 0x3fe3fecb2bb18b82, 0x3fe44399afa8e128,
  0x3fe48a6afb8ee06c, 0x3fe4d366c151f8b2, 0x3fe51eba1578899e, 0x3fe56c9882da8777,
  0x3fe5bd3d694cac79, 0x3fe610edc1a7af6a, 0x3fe667fa6d4f5c0a, 0x3fe6c2c3498418ca,
  0x3fe721bb5ba94b67, 0x3fe7856e9b09d483, 0x3fe7ee8a2d24312b, 0x3fe85de87806c5bd,
  0x3fe8d4a376d3d235, 0x3fe95431c455aa3f, 0x3fe9de9715556da1, 0x3fea76baa562faee,
  0x3feb210f0ee67f32, 0x3febe5007beb7b31, 0x3fecd0a65081fffc, 0x3fee0545e5881147,
  0x3ff0000000000000]

/-- Layer edges under `exp (-x * x / 2)`. -/
def normalEdges : Array UInt64 := #[
  0x400f493b78164498, 0x400d3bb48209ad33, 0x400b981f3878f995, 0x400a8fdc7894718c,
  0x4009cbee014050df, 0x40092ee0946f3d1a, 0x4008ab0fbfaa7412, 0x400839030529e9c6,
  0x4007d42df4d6c5c3, 0x400779955608fd5b, 0x40072728f05f70d7, 0x4006db6b8d09d896,
  0x40069540be9fdbed, 0x400653ce7b0060df, 0x40061669cf86140f, 0x4005dc8a243ac693,
  0x4005a5c08b718342, 0x400571b1a94ad95a, 0x40054011523a7359, 0x4005109f53e9a131,
  0x4004e3250dcd7dcc, 0x4004b7739d6b4ecc, 0x40048d62759c383d, 0x400464ce44a72e74,
  0x40043d98155452d1, 0x400417a49cb9d9f6, 0x4003f2dbaa60e871, 0x4003cf27b316f883,
  0x4003ac7570ae7cb8, 0x40038ab3925634a9, 0x400369d27a339bc1, 0x400349c405ae0606,
  0x40032a7b5e6897e9, 0x40030becd256a217, 0x4002ee0db1a96c02, 0x4002d0d43196ce88,
  0x4002b4375329fd27, 0x4002982ecd770131, 0x40027cb2faa84bcb, 0x400261bcc7764b62,
  0x40024745a4ac8e8b, 0x40022d477a6fc63b, 0x400213bc9d04beb3, 0x4001fa9fc2e2cb18,
  0x4001e1ebfbe4a036, 0x4001c99ca9719877, 0x4001b1ad777f2157, 0x40019a1a564edd5a,
  0x400182df74d203f5, 0x40016bf93b9de06e, 0x4001556448601f9d, 0x40013f1d69c3fab5,
  0x400129219bbb4e64, 0x4001136e04206156, 0x4000fdffefa690b2, 0x4000e8d4cf115675,
  0x4000d3ea34aa2df9, 0x4000bf3dd1eec4f7, 0x4000aacd7571b15a, 0x4000969708e892d0,
  0x400082988f631e79, 0x40006ed023a716b0, 0x40005b3bf6ada3ac, 0x400047da4e3ee5db,
  0x400034a983a8f2a6, 0x400021a8028fb929, 0x40000ed447d3903d, 0x3ffff859c118d567,
  0x3fffd360d22fc6ae, 0x3fffaebb187101b4, 0x3fff8a6604897644, 0x3fff665f20c8dff6,
  0x3fff42a40fb72bc7, 0x3fff1f328ac23146, 0x3ffefc086101ca9b, 0x3ffed923761084f7,
  0x3ffeb681c0f74c90, 0x3ffe94214b2a9c5c, 0x3ffe72002f97db41, 0x3ffe501c99c1ae6f,
  0x3ffe2e74c4ea23a7, 0x3ffe0d06fb49ae98, 0x3ffdebd195520a7e, 0x3ffdcad2f8fc2520,
  0x3ffdaa0999204a4d, 0x3ffd8973f4d7d74d, 0x3ffd691096e7cc94, 0x3ffd48de1533a181,
  0x3ffd28db1037ca23, 0x3ffd0906328b6a39, 0x3ffce95e3068baca, 0x3ffcc9e1c73bb0ea,
  0x3ffcaa8fbd367ccd, 0x3ffc8b66e0eb8000, 0x3ffc6c6608ec60b5, 0x3ffc4d8c136de693,
  0x3ffc2ed7e5f05369, 0x3ffc10486cebefa2, 0x3ffbf1dc9b81874a, 0x3ffbd3936b2e992e,
  0x3ffbb56bdb84fdbe, 0x3ffb9764f1e5cf51, 0x3ffb797db93f6101, 0x3ffb5bb541ce14a1,
  0x3ffb3e0aa0dfe361, 0x3ffb207cf09a6f7e, 0x3ffb030b4fc37800, 0x3ffae5b4e18b89de,
  0x3ffac878cd5acc36, 0x3ffaab563e9fc731, 0x3ffa8e4c64a00726, 0x3ffa715a724a7f4d,
  0x3ffa547f9e0b90ef, 0x3ffa37bb21a29d81, 0x3ffa1b0c39f90b75, 0x3ff9fe7226faa6ea,
  0x3ff9e1ec2b6f486d, 0x3ff9c5798cd5ad43, 0x3ff9a919933f6d92, 0x3ff98ccb892dfdbf,
  0x3ff9708ebb70a936, 0x3ff954627903758c, 0x3ff9384612eeddb8, 0x3ff91c38dc2855bc,
  0x3ff9003a297387bc, 0x3ff8e44951443c0a, 0x3ff8c865aba0de35, 0x3ff8ac8e92059192,
  0x3ff890c35f47c831, 0x3ff875036f7a4f7e, 0x3ff8594e1fd1c628, 0x3ff83da2ce896f32,
  0x3ff82200dac85645, 0x3ff80667a486b99e, 0x3ff7ead68c73ae15, 0x3ff7cf4cf3daf1d9,
  0x3ff7b3ca3c8ae294, 0x3ff7984dc8ba8bcb, 0x3ff77cd6faefc22d, 0x3ff7616535e540ad,
  0x3ff745f7dc70bc13, 0x3ff72a8e5168e1a6, 0x3ff70f27f78b3573, 0x3ff6f3c43161c483,
  0x3ff6d86261289f28, 0x3ff6bd01e8b30f36, 0x3ff6a1a229507dcf, 0x3ff6864283b0fbf7,
  0x3ff66ae257c960d3, 0x3ff64f8104b6f00c, 0x3ff6341de8a27a41, 0x3ff618b860a2e8ff,
  0x3ff5fd4fc89f270f, 0x3ff5e1e37b2f5545, 0x3ff5c672d17d3b48, 0x3ff5aafd2323e2fb,
  0x3ff58f81c60e4c4c, 0x3ff574000e552644, 0x3ff558774e1b7925, 0x3ff53ce6d56a2c3d,
  0x3ff5214df20a50d8, 0x3ff505abef5e1a6d, 0x3ff4ea0016386a9c, 0x3ff4ce49acb2d5fd,
  0x3ff4b287f6020506, 0x3ff496ba3248525e, 0x3ff47adf9e6685ea, 0x3ff45ef773ca8993,
  0x3ff44300e83bf25a, 0x3ff426fb2da63591, 0x3ff40ae571e05f24, 0x3ff3eebede721aac,
  0x3ff3d2869855dd80, 0x3ff3b63bbfb7fc17, 0x3ff399dd6fb270e9, 0x3ff37d6abe05165d,
  0x3ff360e2baca1034, 0x3ff3444470261b6a, 0x3ff3278ee1f4755f, 0x3ff30ac10d6e0469,
  0x3ff2edd9e8cb647f, 0x3ff2d0d862e172a1, 0x3ff2b3bb62b7e880, 0x3ff29681c7199017,
  0x3ff2792a661d8bcd, 0x3ff25bb40ca92399, 0x3ff23e1d7de97a07, 0x3ff2206572c47d17,
  0x3ff2028a99405610, 0x3ff1e48b93e088dc, 0x3ff1c666f8f7deb3, 0x3ff1a81b51ee20a3,
  0x3ff189a71a788c7e, 0x3ff16b08bfc3d191, 0x3ff14c3e9f8e41d8, 0x3ff12d470730bf74,
  0x3ff10e203294c4bd, 0x3ff0eec84b15b64d, 0x3ff0cf3d664b796d, 0x3ff0af7d84bc0d06,
  0x3ff08f8690719efd, 0x3ff06f565b7249f9, 0x3ff04eea9e164ed4, 0x3ff02e40f5393759,
  0x3ff00d56e041db89, 0x3fefd8537df97991, 0x3fef956d9e87202b, 0x3fef51f654d83c88,
  0x3fef0de784efa595, 0x3feec93abdf8c395, 0x3fee83e93379ad08, 0x3fee3debb5d2292d,
  0x3fedf73aa9f0ae8d, 0x3fedafce0022edee, 0x3fed679d29e3510d, 0x3fed1e9f0e7fe5f7,
  0x3fecd4c9fe7151ca, 0x3fec8a13a531630b, 0x3fec3e70f95872e0, 0x3febf1d62abea23b,
  0x3feba4368e51bb30, 0x3feb5584874191da, 0x3feb05b16d127fd5, 0x3feab4ad6e0f24ba,
  0x3fea62676d76d6f5, 0x3fea0eccdca3ab98, 0x3fe9b9c98e37c43b, 0x3fe96347822b1818,
  0x3fe90b2ea94dc2a8, 0x3fe8b1649e7a632c, 0x3fe855cc5341f023, 0x3fe7f845ad45d397,
  0x3fe798ad10b200f0, 0x3fe736dad345c6b6, 0x3fe6d2a291feca73, 0x3fe66bd261a2377e,
  0x3fe60231cfd82f9b, 0x3fe59580a70673c9, 0x3fe5257562196c1c, 0x3fe4b1bb363c898d,
  0x3fe439ef8dfe170a, 0x3fe3bd9ec1a11c06, 0x3fe33c3fc055e9ed, 0x3fe2b52e38621b30,
  0x3fe227a28f78456a, 0x3fe192a6973f450a, 0x3fe0f5053b004b4e, 0x3fe04d32278c832e,
  0x3fdf32482d4807a6, 0x3fddac2f5a6f3120, 0x3fdc004d2f328d93, 0x3fda230c2e46389e,
  0x3fd801fce827fac5, 0x3fd57cb9383ae550, 0x3fd250af3c200a69, 0x3fcb8d0be3d69918,
  0x0000000000000000]

/-- The density `exp (-x * x / 2)` at these edges. -/
def normalHeights : Array UInt64 := #[
  0x3f3f4a946f0d1e21, 0x3f54a605b6b9f70f, 0x3f655f9f43c1d644, 0x3f708a1f03b0d9d7,
  0x3f769ea8d90cf658, 0x3f7ce160f8ecbd47, 0x3f81a5922995660b, 0x3f84eb96421b129f,
  0x3f8841040d8df3ca, 0x3f8ba48d274febdc, 0x3f8f152a4f734696, 0x3f91490334606b67,
  0x3f930d388daba032, 0x3f94d6eaf2fbf966, 0x3f96a5daf40c0f87, 0x3f9879d1b6011823,
  0x3f9a529f4e234a42, 0x3f9c301983cd6ea9, 0x3f9e121adb82f964, 0x3f9ff881d7191a2c,
  0x3fa0f1982e96be0f, 0x3fa1e9059f1fac92, 0x3fa2e27ce83e3a4f, 0x3fa3ddf2ce993869,
  0x3fa4db5d0e1174f2, 0x3fa5dab23cf2ff69, 0x3fa6dbe9b3992600, 0x3fa7defb77af80c9,
  0x3fa8e3e02a691375, 0x3fa9ea90f929b758, 0x3faaf3079038c597, 0x3fabfd3e0f289491,
  0x3fad092efeae600a, 0x3fae16d547b2c47c, 0x3faf262c2b6ce583, 0x3fb01b979e31226f,
  0x3fb0a4ed2c15d631, 0x3fb12f14d0f259e6, 0x3fb1ba0cbe97ce08, 0x3fb245d344dd5460,
  0x3fb2d266cf9b7a28, 0x3fb35fc5e4d989d0, 0x3fb3edef2326e83c, 0x3fb47ce1401b7223,
  0x3fb50c9b06fa7e17, 0x3fb59d1b5774bb6b, 0x3fb62e612485a445, 0x3fb6c06b7369a3e7,
  0x3fb753395aaa6d7f, 0x3fb7e6ca013f4e4d, 0x3fb87b1c9dbf893e, 0x3fb9103075a50413,
  0x3fb9a604dc9dc0fe, 0x3fba3c9933eacaf5, 0x3fbad3ece9cb6128, 0x3fbb6bff78f34fb7,
  0x3fbc04d0680b802c, 0x3fbc9e5f493be6bd, 0x3fbd38abb9be0731, 0x3fbdd3b561776082,
  0x3fbe6f7bf29b1fea, 0x3fbf0bff29528b67, 0x3fbfa93ecb6ba232, 0x3fc0239d5406be88,
  0x3fc072f94bb9023d, 0x3fc0c2b33d524dd1, 0x3fc112cb1da2b434, 0x3fc16340e5a87443,
  0x3fc1b4149275c58a, 0x3fc20546251885e5, 0x3fc256d5a283a9d2, 0x3fc2a8c3137a53a6,
  0x3fc2fb0e847c7863, 0x3fc34db805b4fafa, 0x3fc3a0bfaae928d4, 0x3fc3f4258b698410,
  0x3fc447e9c203c9b4, 0x3fc49c0c6cf6238e, 0x3fc4f08dade376a4, 0x3fc5456da9c8c09d,
  0x3fc59aac88f3775c, 0x3fc5f04a76f8df6f, 0x3fc64647a2ae4e9c, 0x3fc69ca43e2250e8,
  0x3fc6f3607e96a72f, 0x3fc74a7c9c7b1751, 0x3fc7a1f8d3690665, 0x3fc7f9d5621fd650,
  0x3fc852128a8200b0, 0x3fc8aab09192e973, 0x3fc903afbf756425, 0x3fc95d105f6ae788,
  0x3fc9b6d2bfd36b63, 0x3fca10f7322decf1, 0x3fca6b7e0b1996df, 0x3fcac667a2578a1b,
  0x3fcb21b452cd4505, 0x3fcb7d647a87a72b, 0x3fcbd9787abe8fde, 0x3fcc35f0b7d91641,
  0x3fcc92cd99725a10, 0x3fccf00f8a5eec4b, 0x3fcd4db6f8b2cf92, 0x3fcdabc455c81015,
  0x3fce0a381645f35f, 0x3fce6912b228c089, 0x3fcec854a4ca21c2, 0x3fcf27fe6cea202a,
  0x3fcf88108cb8bb6b, 0x3fcfe88b89e01ed8, 0x3fd024b7f6c7baf9, 0x3fd0555f22433149,
  0x3fd0863b8f908b9b, 0x3fd0b74d88b28c36, 0x3fd0e8955987541a, 0x3fd11a134fcf6f75,
  0x3fd14bc7bb353ab8, 0x3fd17db2ed54a239, 0x3fd1afd539c33ea1, 0x3fd1e22ef618d06b,
  0x3fd214c079f81cf7, 0x3fd2478a1f182fe8, 0x3fd27a8c414e0385, 0x3fd2adc73e96934e,
  0x3fd2e13b77215be5, 0x3fd314e94d5b4bbe, 0x3fd348d125fa283f, 0x3fd37cf368086b2c,
  0x3fd3b1507cf19c77, 0x3fd3e5e8d08f2cbb, 0x3fd41abcd135d515, 0x3fd44fccefc38117,
  0x3fd485199fadc80d, 0x3fd4baa35710fafe, 0x3fd4f06a8ebfcd13, 0x3fd5266fc2539c94,
  0x3fd55cb3703d62d1, 0x3fd5933619d751bc, 0x3fd5c9f843772671, 0x3fd600fa74813828,
  0x3fd6383d377c4bab, 0x3fd66fc11a2633af, 0x3fd6a786ad894727, 0x3fd6df8e8612b6ec,
  0x3fd717d93ba9cccd, 0x3fd7506769c81eaf, 0x3fd78939af92c0f3, 0x3fd7c250aff48400,
  0x3fd7fbad11b949ad, 0x3fd8354f7faa7fc5, 0x3fd86f38a8accdf4, 0x3fd8a9693fdf061c,
  0x3fd8e3e1fcba6703, 0x3fd91ea39b344260, 0x3fd959aedbe1183b, 0x3fd9950484193ad3,
  0x3fd9d0a55e1f0f53, 0x3fda0c923947011e, 0x3fda48cbea213e9e, 0x3fda85534aa55844,
  0x3fdac2293a5fdbd7, 0x3fdaff4e9ea20806, 0x3fdb3cc462b3b5fc, 0x3fdb7a8b780798d0,
  0x3fdbb8a4d671f4cd, 0x3fdbf7117c61f2de, 0x3fdc35d26f1db70f, 0x3fdc74e8bb0163b2,
  0x3fdcb45573c135cb, 0x3fdcf419b4aeea8e, 0x3fdd3436a102a142, 0x3fdd74ad6427709c,
  0x3fddb57f320beac8, 0x3fddf6ad4776cfd2, 0x3fde3838ea603307, 0x3fde7a236a4f5d07,
  0x3fdebc6e20bdba59, 0x3fdeff1a717f2c62, 0x3fdf4229cb301990, 0x3fdf859da7a9a13d,
  0x3fdfc9778c7c5ff1, 0x3fe006dc85b91cde, 0x3fe02931e18bd539, 0x3fe04bbcafa69335,
  0x3fe06e7dccf09138, 0x3fe091761d99b381, 0x3fe0b4a68d7130b1, 0x3fe0d81010419aaa,
  0x3fe0fbb3a232b228, 0x3fe11f924831795c, 0x3fe143ad105f04d3, 0x3fe168051286962a,
  0x3fe18c9b709b99bd, 0x3fe1b17157402fa1, 0x3fe1d687fe54f920, 0x3fe1fbe0a992f702,
  0x3fe2217ca9305a04, 0x3fe2475d5a913ecc, 0x3fe26d8429056971, 0x3fe293f28e9432db,
  0x3fe2baaa14d7fc57, 0x3fe2e1ac55eaa449, 0x3fe308fafd64a29f, 0x3fe33097c970a541,
  0x3fe358848bf5bd57, 0x3fe380c32bda6ead, 0x3fe3a955a6633c57, 0x3fe3d23e10afa266,
  0x3fe3fb7e9958cdc7, 0x3fe425198a35d3b3, 0x3fe44f114a49abdd, 0x3fe479685fdfc714,
  0x3fe4a42172dccb23, 0x3fe4cf3f4f49c91e, 0x3fe4fac4e8213283, 0x3fe526b55a65eabb,
  0x3fe55313f08e1e03, 0x3fe57fe4264d0f30, 0x3fe5ad29acc8e01c, 0x3fe5dae86f4b84fe,
  0x3fe609249880ae0a, 0x3fe637e2985595df, 0x3fe667272a936f1e, 0x3fe696f75e51c96b,
  0x3fe6c7589e63eb25, 0x3fe6f850baeb0dfb, 0x3fe729e5f44002a7, 0x3fe75c1f0771708d,
  0x3fe78f033ca14bc9, 0x3fe7c29a779d0627, 0x3fe7f6ed4b218395, 0x3fe82c050f577355,
  0x3fe861ebfc3863d6, 0x3fe898ad48bb899a, 0x3fe8d0554fe6b8dc, 0x3fe908f1bd322352,
  0x3fe94291c21c3052, 0x3fe97d4657623514, 0x3fe9b9228d24c563, 0x3fe9f63bee65e399,
  0x3fea34aafdf6780c, 0x3fea748bd5519883, 0x3feab5fef17af9c6, 0x3feaf92a3f6dc413,
  0x3feb3e3a8235bfda, 0x3feb85653a90e040, 0x3febceeb4ee2d08d, 0x3fec1b1cd9efb947,
  0x3fec6a5eceaa82b8, 0x3fecbd33a8a84602, 0x3fed144978a24289, 0x3fed70920658fa12,
  0x3fedd36fa70635f9, 0x3fee3f11e0296bb2, 0x3feeb7545b6e5a2d, 0x3fef446ac97c0265,
  0x3ff0000000000000]

def exponential : ZigguratTable :=
  ⟨exponentialEdges.map Float.ofBits, exponentialHeights.map Float.ofBits⟩

def normal : ZigguratTable :=
  ⟨normalEdges.map Float.ofBits, normalHeights.map Float.ofBits⟩

def edge (t : ZigguratTable) (i : Nat) : Float := t.edges.getD i 0.0

def height (t : ZigguratTable) (i : Nat) : Float := t.heights.getD i 0.0

end ZigguratTable

end OppNet.Random
